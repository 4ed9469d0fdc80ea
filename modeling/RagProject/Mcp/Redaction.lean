import RagProject.Lib.Python

/-! redact_data (mcp/redaction.py): which entries of a mapping it keeps. What it makes of a text,
truncate_text at the limit of the call, is a parameter. -/
namespace RagProject.Mcp
open Python

section Keys
variable [UnicodeTables]

def sensitiveKeyNames : List String :=
  ["apikey", "authorization", "cookie", "credential", "csrf", "password", "privatekey", "secret",
    "session", "token"]

def rawContextKeyNames : List String :=
  ["chunkcontent", "chunktext", "contenttext", "context", "contextchunks", "contextmessages",
    "contexttext", "fullcontext", "fullprompt", "jobpayload", "payloadjson", "prompt", "prompttext",
    "qdrantpayload", "raw", "rawchunk", "rawchunktext", "rawcontext", "rawprompt",
    "retrievedcontext", "sourcetext", "storagekey", "storagepath"]

def dangerousFragments : List String :=
  ["chunkcontent", "chunktext", "context", "fullprompt", "prompt", "qdrantpayload", "raw",
    "retrievedcontext", "sourcetext"]

def pathKeyNames : List String :=
  ["absolutepath", "filepath", "localpath", "outputpath", "path", "resultpath"]

/-- _normalize_key: the lower-case letters and digits of a key. -/
def normalizeKey (value : String) : List Char :=
  (lower value.toList).filter fun c => ('a' ≤ c && c ≤ 'z') || ('0' ≤ c && c ≤ '9')

def isSensitiveKey (value : String) : Bool :=
  sensitiveKeyNames.any fun name => contains (normalizeKey value) name.toList

def isRawContextKey (value : String) : Bool :=
  rawContextKeyNames.any (fun name => normalizeKey value == name.toList) ||
    dangerousFragments.any fun fragment => contains (normalizeKey value) fragment.toList

def isPathLikeKey (value : String) : Bool :=
  pathKeyNames.any fun name => normalizeKey value == name.toList

/-- The key is none of those that are dropped or hidden. -/
def plainKey (value : String) : Bool :=
  !isSensitiveKey value && !isRawContextKey value && !isPathLikeKey value

omit [UnicodeTables] in
theorem normalizeKey_ascii (s t : UnicodeTables) {key : String}
    (ascii : ∀ c ∈ key.toList, c.toNat < 128) : @normalizeKey s key = @normalizeKey t key := by
  unfold normalizeKey
  rw [lower_ascii s t ascii]

omit [UnicodeTables] in
theorem plainKey_ascii (s t : UnicodeTables) {key : String} (ascii : ∀ c ∈ key.toList, c.toNat < 128) :
    @plainKey s key = @plainKey t key := by
  unfold plainKey isSensitiveKey isRawContextKey isPathLikeKey
  rw [normalizeKey_ascii s t ascii]

/-- A key in ASCII is plain when the tables for ASCII find it so. -/
theorem plain_of_ascii {key : String} (ascii : ∀ c ∈ key.toList, c.toNat < 128)
    (plain : @plainKey asciiTables key = true) : plainKey key = true := by
  rwa [plainKey_ascii _ asciiTables ascii]

end Keys

section Redaction
variable [UnicodeTables] (cut : String → String)

def redacted : String := "[REDACTED]"

/-- What was seen is told in entries of their own. -/
def flagged (entries : List (String × Value)) (safe : Dict) : Dict :=
  let told :=
    if entries.any fun e => isSensitiveKey e.1 then safe.set "redacted_sensitive" (.bool true)
    else safe
  if entries.any fun e => !isSensitiveKey e.1 && isRawContextKey e.1 then
    told.set "omitted_raw_field" (.bool true)
  else told

mutual
def redactData : Value → Value
  | .str s => .str (cut s)
  | .list items => .list (redactItems items)
  | .dict entries => .dict (flagged entries (redactEntries entries))
  | .none => .none
  | .bool b => .bool b
  | .int n => .int n
  | .float q => .float q
def redactItems : List Value → List Value
  | [] => []
  | v :: vs => redactData v :: redactItems vs
def redactEntries : List (String × Value) → Dict
  | [] => []
  | (key, item) :: entries =>
    if isSensitiveKey key || isRawContextKey key then redactEntries entries
    else if isPathLikeKey key then (key, .str redacted) :: redactEntries entries
    else (key, redactData item) :: redactEntries entries
end

/-- A mapping without what is dropped or hidden. -/
def redactDict (entries : Dict) : Dict := flagged entries (redactEntries cut entries)

theorem redactItems_map (items : List Value) : redactItems cut items = items.map (redactData cut) := by
  induction items with
  | nil => rfl
  | cons v items ih => rw [redactItems, ih, List.map_cons]

theorem redactData_dict (entries : Dict) :
    redactData cut (.dict entries) = .dict (redactDict cut entries) := by
  rw [redactData, redactDict]

/-- The entries that are told of what was seen. -/
def flagNames : List String := ["redacted_sensitive", "omitted_raw_field"]

theorem get_flagged (entries : List (String × Value)) (safe : Dict) {key : String}
    (other : key ∉ flagNames) : Dict.get (flagged entries safe) key = Dict.get safe key := by
  simp only [flagNames, List.mem_cons, List.not_mem_nil, or_false, not_or] at other
  unfold flagged
  dsimp only
  split <;> split <;> simp only [get_set_ne, other, ne_eq, not_false_eq_true]

/-- What becomes of one entry. -/
def redactEntry (e : String × Value) : Option (String × Value) :=
  if isSensitiveKey e.1 || isRawContextKey e.1 then none
  else if isPathLikeKey e.1 then some (e.1, .str redacted)
  else some (e.1, redactData cut e.2)

theorem redactEntries_filterMap (entries : Dict) :
    redactEntries cut entries = entries.filterMap (redactEntry cut) := by
  induction entries with
  | nil => rfl
  | cons e entries ih =>
    obtain ⟨key, item⟩ := e
    rw [redactEntries, List.filterMap_cons, ih, redactEntry]
    split
    · rfl
    · split <;> rfl

theorem get_redactEntries (entries : Dict) (key : String) :
    Dict.get (redactEntries cut entries) key =
      (Dict.get entries key).bind fun v => (redactEntry cut (key, v)).map Prod.snd := by
  induction entries with
  | nil => rfl
  | cons e entries ih =>
    obtain ⟨k, v⟩ := e
    by_cases same : key = k
    · subst same
      simp only [redactEntries, redactEntry, get_cons, if_true, Option.bind_some] at ih ⊢
      split
      · -- A dropped key is dropped wherever it stands.
        rename_i dropped
        simp [ih, dropped]
      · split <;> simp [get_cons]
    · have tail : Dict.get ((k, v) :: entries) key = Dict.get entries key := by
        rw [get_cons, if_neg same]
      rw [redactEntries, tail]
      split
      · exact ih
      · split
        · rw [get_cons, if_neg same, ih]
        · rw [get_cons, if_neg same, ih]

theorem redactEntry_plain {e : String × Value} (plain : plainKey e.1 = true) :
    redactEntry cut e = some (e.1, redactData cut e.2) := by
  simp only [plainKey, Bool.and_eq_true, Bool.not_eq_true'] at plain
  simp [redactEntry, plain.1.1, plain.1.2, plain.2]

/-- A plain entry of a mapping is kept. -/
theorem get_redactDict (entries : Dict) {key : String} (plain : plainKey key = true)
    (other : key ∉ flagNames) :
    Dict.get (redactDict cut entries) key = (Dict.get entries key).map (redactData cut) := by
  rw [redactDict, get_flagged entries _ other, get_redactEntries]
  cases Dict.get entries key with
  | none => rfl
  | some v => simp [redactEntry_plain cut (e := (key, v)) plain]

/-- Among plain keys nothing is dropped or told of. -/
theorem redactDict_plain {entries : Dict} (plain : ∀ e ∈ entries, plainKey e.1 = true) :
    redactDict cut entries = entries.map fun e => (e.1, redactData cut e.2) := by
  have shown : ∀ e ∈ entries, isSensitiveKey e.1 = false ∧ isRawContextKey e.1 = false := by
    intro e member
    have known := plain e member
    simp only [plainKey, Bool.and_eq_true, Bool.not_eq_true'] at known
    exact known.1
  have unseen : (entries.any fun e => isSensitiveKey e.1) = false :=
    List.any_eq_false.mpr fun e member => by simp [(shown e member).1]
  have unraw : (entries.any fun e => !isSensitiveKey e.1 && isRawContextKey e.1) = false :=
    List.any_eq_false.mpr fun e member => by simp [(shown e member).2]
  unfold redactDict flagged
  rw [unseen, unraw, redactEntries_filterMap, ← List.filterMap_eq_map]
  exact List.filterMap_congr fun e member => redactEntry_plain cut (plain e member)

omit [UnicodeTables] in
theorem get_map (f : Value → Value) (entries : Dict) (key : String) :
    Dict.get (entries.map fun e => (e.1, f e.2)) key = (Dict.get entries key).map f := by
  induction entries with
  | nil => rfl
  | cons e entries ih =>
    rw [List.map_cons, get_cons, get_cons, ih]
    split <;> rfl

omit [UnicodeTables] in
theorem get_of_mem {entries : Dict} {e : String × Value} (member : e ∈ entries) :
    (Dict.get entries e.1).isSome := by
  induction entries with
  | nil => cases member
  | cons f entries ih =>
    rw [get_cons]
    split
    · rfl
    · rcases List.mem_cons.mp member with rfl | later
      · contradiction
      · exact ih later

theorem get_redactDict_plain {entries : Dict}
    (plain : ∀ key, (Dict.get entries key).isSome → plainKey key = true) (key : String) :
    Dict.get (redactDict cut entries) key = (Dict.get entries key).map (redactData cut) := by
  rw [redactDict_plain cut fun e member => plain e.1 (get_of_mem member), get_map]

/-- A number is left as it is. -/
def numberOf : Value → Option Rat
  | .int n => some n
  | .float q => some q
  | _ => none

theorem number_of_redacted (v : Value) : numberOf (redactData cut v) = numberOf v := by
  cases v <;> rfl

/-- An entry that tells of what was dropped, or that hides a value. -/
def Blemish (e : String × Value) : Prop :=
  (e.1 ∈ flagNames ∧ e.2 = .bool true) ∨
    (isSensitiveKey e.1 = false ∧ isRawContextKey e.1 = false ∧ isPathLikeKey e.1 = true ∧
      e.2 = .str redacted)

theorem Blemish.no_number {e : String × Value} (blemish : Blemish e) : numberOf e.2 = none := by
  rcases blemish with ⟨_, value⟩ | ⟨_, _, _, value⟩ <;> rw [value] <;> rfl

theorem Blemish.name {e : String × Value} (blemish : Blemish e) {name : String}
    (plain : plainKey name = true) (other : name ∉ flagNames) : e.1 ≠ name := by
  rintro rfl
  rcases blemish with ⟨flag, _⟩ | ⟨_, _, path, _⟩
  · exact other flag
  · simp [plainKey, path] at plain

theorem flag_path {key : String} (flag : key ∈ flagNames) : isPathLikeKey key = false := by
  have ascii : ∀ name ∈ flagNames, ∀ c ∈ name.toList, c.toNat < 128 := by decide
  have other : ∀ name ∈ flagNames, @isPathLikeKey asciiTables name = false := by decide +kernel
  have known := other key flag
  unfold isPathLikeKey at known ⊢
  rwa [normalizeKey_ascii _ asciiTables (ascii key flag)]

/-- A blemish stays when more is told. -/
theorem flagged_blemish (entries : List (String × Value)) {safe : Dict} {e : String × Value}
    (there : Dict.get safe e.1 = some e.2) (blemish : Blemish e) :
    Dict.get (flagged entries safe) e.1 = some e.2 := by
  have told {d : Dict} (flag : String) (name : flag ∈ flagNames) (there : Dict.get d e.1 = some e.2) :
      Dict.get (d.set flag (.bool true)) e.1 = some e.2 := by
    by_cases same : e.1 = flag
    · have value : e.2 = .bool true := by
        rcases blemish with ⟨_, value⟩ | ⟨_, _, path, _⟩
        · exact value
        · rw [same, flag_path name] at path
          cases path
      rw [same, value]
      exact get_set_self d flag _
    · rw [get_set_ne d _ same]
      exact there
  unfold flagged
  dsimp only
  split
  · apply told _ (by decide)
    split
    · exact told _ (by decide) there
    · exact there
  · split
    · exact told _ (by decide) there
    · exact there

/-- A name that is not plain leaves a blemish. -/
theorem unplain_blemish {entries : Dict} {key : String} (there : (Dict.get entries key).isSome)
    (unplain : plainKey key = false) :
    ∃ e, Dict.get (redactDict cut entries) e.1 = some e.2 ∧ Blemish e := by
  obtain ⟨v, found⟩ := Option.isSome_iff_exists.mp there
  cases sensitive : isSensitiveKey key with
  | true =>
    have seen : (entries.any fun e => isSensitiveKey e.1) = true :=
      List.any_eq_true.mpr ⟨_, get_mem found, sensitive⟩
    refine ⟨("redacted_sensitive", .bool true), ?_, .inl ⟨by decide, rfl⟩⟩
    unfold redactDict flagged
    rw [seen]
    dsimp only
    split
    · rw [get_set_ne _ _ (by decide)]
      exact get_set_self _ _ _
    · exact get_set_self _ _ _
  | false =>
    cases raw : isRawContextKey key with
    | true =>
      have seen : (entries.any fun e => !isSensitiveKey e.1 && isRawContextKey e.1) = true :=
        List.any_eq_true.mpr ⟨_, get_mem found, by simp [sensitive, raw]⟩
      refine ⟨("omitted_raw_field", .bool true), ?_, .inl ⟨by decide, rfl⟩⟩
      unfold redactDict flagged
      rw [seen]
      exact get_set_self _ _ _
    | false =>
      have path : isPathLikeKey key = true := by simpa [plainKey, sensitive, raw] using unplain
      have blemish : Blemish (key, .str redacted) := .inr ⟨sensitive, raw, path, rfl⟩
      refine ⟨(key, .str redacted), flagged_blemish entries ?_ blemish, blemish⟩
      rw [get_redactEntries, found]
      simp [redactEntry, sensitive, raw, path]

/-- A mapping with a blemish keeps one. -/
theorem redactDict_blemish {entries : Dict} {e : String × Value}
    (there : Dict.get entries e.1 = some e.2) (blemish : Blemish e) :
    ∃ f, Dict.get (redactDict cut entries) f.1 = some f.2 ∧ Blemish f := by
  cases plain : plainKey e.1 with
  | false => exact unplain_blemish cut (by rw [there]; rfl) plain
  | true =>
    refine ⟨e, flagged_blemish entries ?_ blemish, blemish⟩
    rw [get_redactEntries, there, Option.bind_some, redactEntry_plain cut plain]
    rcases blemish with ⟨_, value⟩ | ⟨_, _, path, _⟩
    · rw [value]
      rfl
    · simp [plainKey, path] at plain

/-- What has an entry keeps one. -/
theorem redactDict_some {entries : Dict} {key : String} (there : (Dict.get entries key).isSome) :
    ∃ name, (Dict.get (redactDict cut entries) name).isSome := by
  by_cases plain : ∀ name, (Dict.get entries name).isSome → plainKey name = true
  · refine ⟨key, ?_⟩
    rw [get_redactDict_plain cut plain, Option.isSome_map]
    exact there
  · push Not at plain
    obtain ⟨name, known, unplain⟩ := plain
    obtain ⟨e, found, _⟩ := unplain_blemish cut known (by simpa using unplain)
    exact ⟨e.1, by rw [found]; rfl⟩

end Redaction
end RagProject.Mcp
