import RagProject.Lib.IpAddressText
import RagProject.Lib.Words

/-! URLs as texts, as the standard library urllib.parse takes them apart and puts them together. -/
namespace Python

/-- The tables that URLs ask for characters outside ASCII: the normal form NFKC of a text, and what
IDNA makes of a label. The only ASCII characters of a lowered text that come from outside ASCII are
letters. -/
class UrlTables extends UnicodeTables where
  nfkc : List Char → List Char
  toAscii : List Char → Option (List Char)
  letters : ∀ c : Char, 128 ≤ c.toNat → ∀ d ∈ lower c, d.toNat < 128 → d.isAlpha = true

theorem ascii_letters (c : Char) (large : 128 ≤ c.toNat) (d : Char)
    (member : d ∈ asciiTables.lower c) (small : d.toNat < 128) : d.isAlpha = true := by
  cases List.mem_singleton.mp member
  exact absurd small (Nat.not_lt.mpr large)

/-- Tables for URLs that stay in ASCII. -/
@[reducible] def asciiUrls : UrlTables where
  toUnicodeTables := asciiTables
  nfkc := id
  toAscii _ := none
  letters := ascii_letters

section Cutting

/-- s.partition(sep). -/
def partition (sep : Char) (s : List Char) : List Char × Bool × List Char :=
  (s.takeWhile (· ≠ sep), decide (sep ∈ s), (s.dropWhile (· ≠ sep)).tail)

/-- s.rpartition(sep). -/
def rpartition (sep : Char) (s : List Char) : List Char × Bool × List Char :=
  (((s.reverse.dropWhile (· ≠ sep)).tail).reverse, decide (sep ∈ s),
    (s.reverse.takeWhile (· ≠ sep)).reverse)

variable {sep : Char} {s front back : List Char}

theorem partition_found (plain : sep ∉ front) :
    partition sep (front ++ sep :: back) = (front, true, back) := by
  have all : ∀ c ∈ front, decide (c ≠ sep) = true := fun c member =>
    decide_eq_true fun same : c = sep => plain (same ▸ member)
  unfold partition
  rw [List.takeWhile_append_of_pos all, List.dropWhile_append_of_pos all]
  simp

theorem partition_missing (plain : sep ∉ s) : partition sep s = (s, false, []) := by
  have all : ∀ c ∈ s, decide (c ≠ sep) = true := fun c member =>
    decide_eq_true fun same : c = sep => plain (same ▸ member)
  unfold partition
  rw [List.takeWhile_eq_self_iff.mpr all, List.dropWhile_eq_nil_iff.mpr all]
  simp [plain]

theorem partition_plain : sep ∉ (partition sep s).1 := fun member => by
  simpa using List.mem_takeWhile_imp member

theorem partition_front {c : Char} (member : c ∈ (partition sep s).1) : c ∈ s :=
  List.takeWhile_subset _ member

theorem partition_back {c : Char} (member : c ∈ (partition sep s).2.2) : c ∈ s :=
  List.dropWhile_subset _ (List.mem_of_mem_tail member)

theorem rpartition_missing (plain : sep ∉ s) : rpartition sep s = ([], false, s) := by
  have all : ∀ c ∈ s.reverse, decide (c ≠ sep) = true := fun c member =>
    decide_eq_true fun same : c = sep => plain (same ▸ List.mem_reverse.mp member)
  unfold rpartition
  rw [List.takeWhile_eq_self_iff.mpr all, List.dropWhile_eq_nil_iff.mpr all]
  simp [plain]

theorem rpartition_plain : sep ∉ (rpartition sep s).2.2 := fun member => by
  simpa using List.mem_takeWhile_imp (List.mem_reverse.mp member)

theorem rpartition_back {c : Char} (member : c ∈ (rpartition sep s).2.2) : c ∈ s :=
  List.mem_reverse.mp (List.takeWhile_subset _ (List.mem_reverse.mp member))

/-- The parts of a text consist of its characters, without the separator. -/
theorem splitOn_chars {part : List Char} (member : part ∈ s.splitOn sep) :
    ∀ c ∈ part, c ∈ s ∧ c ≠ sep := by
  induction s generalizing part with
  | nil =>
    intro c inside
    rw [List.splitOn_nil, List.mem_singleton] at member
    rw [member] at inside
    cases inside
  | cons x s ih =>
    intro c inside
    rw [List.splitOn_cons_eq_if_modifyHead] at member
    by_cases cut : (x == sep) = true
    · rw [if_pos cut] at member
      rcases List.mem_cons.mp member with rfl | later
      · cases inside
      · obtain ⟨there, other⟩ := ih later c inside
        exact ⟨List.mem_cons_of_mem x there, other⟩
    · rw [if_neg cut] at member
      cases parts : s.splitOn sep with
      | nil => exact absurd parts (List.splitOn_ne_nil sep s)
      | cons first rest =>
        rw [parts] at member ih
        rcases List.mem_cons.mp member with rfl | later
        · rcases List.mem_cons.mp inside with rfl | inFirst
          · exact ⟨List.mem_cons_self, by simpa using cut⟩
          · obtain ⟨there, other⟩ := ih List.mem_cons_self c inFirst
            exact ⟨List.mem_cons_of_mem x there, other⟩
        · obtain ⟨there, other⟩ := ih (List.mem_cons_of_mem first later) c inside
          exact ⟨List.mem_cons_of_mem x there, other⟩

end Cutting

/-- A SplitResult. -/
structure Url where
  scheme : List Char
  netloc : List Char
  path : List Char
  query : List Char
  fragment : List Char
  deriving DecidableEq, Repr

section Quoting

/-- The bytes that a sequence still waits for: what was read of it, how many are left, and between
which bounds the next one lies. -/
structure Waiting where
  value : Nat
  left : Nat
  low : Nat
  high : Nat
  deriving DecidableEq, Repr

def replacement : Char := '\ufffd'

/-- The first byte of a sequence. -/
def startByte (b : Nat) : List Char × Option Waiting :=
  if b < 0x80 then ([Char.ofNat b], none)
  else if 0xc2 ≤ b ∧ b ≤ 0xdf then ([], some ⟨b - 0xc0, 1, 0x80, 0xbf⟩)
  else if b = 0xe0 then ([], some ⟨0, 2, 0xa0, 0xbf⟩)
  else if b = 0xed then ([], some ⟨13, 2, 0x80, 0x9f⟩)
  else if 0xe1 ≤ b ∧ b ≤ 0xef then ([], some ⟨b - 0xe0, 2, 0x80, 0xbf⟩)
  else if b = 0xf0 then ([], some ⟨0, 3, 0x90, 0xbf⟩)
  else if 0xf1 ≤ b ∧ b ≤ 0xf3 then ([], some ⟨b - 0xf0, 3, 0x80, 0xbf⟩)
  else if b = 0xf4 then ([], some ⟨4, 3, 0x80, 0x8f⟩)
  else ([replacement], none)

/-- bytes.decode("utf-8", "replace"). -/
def decodeReplacing : Option Waiting → List Nat → List Char
  | none, [] => []
  | some _, [] => [replacement]
  | none, b :: bytes =>
    let (out, next) := startByte b
    out ++ decodeReplacing next bytes
  | some waiting, b :: bytes =>
    if waiting.low ≤ b ∧ b ≤ waiting.high then
      let value := waiting.value * 64 + (b - 0x80)
      if waiting.left = 1 then Char.ofNat value :: decodeReplacing none bytes
      else decodeReplacing (some ⟨value, waiting.left - 1, 0x80, 0xbf⟩) bytes
    else
      let (out, next) := startByte b
      replacement :: out ++ decodeReplacing next bytes

/-- unquote_to_bytes of a text in ASCII. -/
def unquoteToBytes : List Char → List Nat
  | '%' :: a :: b :: rest =>
    if isHexDigit a && isHexDigit b then (hexValue a * 16 + hexValue b) :: unquoteToBytes rest
    else '%'.toNat :: unquoteToBytes (a :: b :: rest)
  | c :: rest => c.toNat :: unquoteToBytes rest
  | [] => []

/-- The runs of ASCII characters, each decoded, and the characters between them. -/
def unquoteRuns : List Char → List Char → List Char
  | run, [] => decodeReplacing none (unquoteToBytes run.reverse)
  | run, c :: rest =>
    if c.toNat < 128 then unquoteRuns (c :: run) rest
    else decodeReplacing none (unquoteToBytes run.reverse) ++ c :: unquoteRuns [] rest

/-- unquote. -/
def unquote (text : List Char) : List Char := if '%' ∈ text then unquoteRuns [] text else text

end Quoting

section Splitting

/-- The characters of scheme_chars. -/
def schemeChar (c : Char) : Bool := c.isAlphanum || c == '+' || c == '-' || c == '.'

/-- The URL without the blanks in front of it and without the bytes that are removed. -/
def cleaned (url : List Char) : List Char :=
  (url.dropWhile (·.toNat ≤ 32)).filter fun c => !(['\t', '\r', '\n'].contains c)

/-- The scheme and the rest. -/
def splitScheme (url : List Char) : List Char × List Char :=
  let front := (partition ':' url).1
  if (partition ':' url).2.1 ∧ (front.head?.any Char.isAlpha) ∧ front.all schemeChar then
    (front.map Char.toLower, (partition ':' url).2.2)
  else ([], url)

def endsNetloc (c : Char) : Bool := c == '/' || c == '?' || c == '#'

/-- The netloc behind two slashes, and the rest. -/
def splitNetloc (rest : List Char) : List Char × List Char :=
  if rest.take 2 = ['/', '/'] then
    ((rest.drop 2).takeWhile (!endsNetloc ·), (rest.drop 2).dropWhile (!endsNetloc ·))
  else ([], rest)

/-- IPvFuture: \Av[a-fA-F0-9]+\..+\Z. -/
def futureAddress (host : List Char) : Bool :=
  let version := (host.drop 1).takeWhile isHexDigit
  version ≠ [] && ((host.drop 1).dropWhile isHexDigit).head? == some '.' &&
    1 < ((host.drop 1).dropWhile isHexDigit).length

/-- _check_bracketed_host. -/
def checkBracketedHost (host : List Char) : Bool :=
  if host.head? = some 'v' then futureAddress host
  else
    match ipAddress host with
    | some (.v6 _ _) => true
    | some (.v4 _) => false
    | none => false

/-- _check_bracketed_netloc. -/
def checkBracketedNetloc (netloc : List Char) : Bool :=
  let hostAndPort := (rpartition '@' netloc).2.2
  let (before, open_, bracketed) := partition '[' hostAndPort
  if open_ then
    let (host, _, port) := partition ']' bracketed
    before == [] && (port == [] || port.head? == some ':') && checkBracketedHost host
  else checkBracketedHost (partition ':' hostAndPort).1

/-- The brackets of a netloc that are accepted. -/
def checkBrackets (netloc : List Char) : Bool :=
  if '[' ∈ netloc ∧ ']' ∈ netloc then checkBracketedNetloc netloc
  else '[' ∉ netloc && ']' ∉ netloc

variable [UrlTables]

/-- _checknetloc. -/
def checkNetloc (netloc : List Char) : Bool :=
  if netloc.all (·.toNat < 128) then true
  else
    let n := netloc.filter fun c => c ≠ '@' ∧ c ≠ ':' ∧ c ≠ '#' ∧ c ≠ '?'
    let normal := UrlTables.nfkc n
    n == normal || normal.all fun c => !("/?#@:".toList.contains c)

/-- urlsplit. -/
def urlSplit (url : List Char) : Option Url :=
  let (scheme, rest) := splitScheme (cleaned url)
  let (netloc, rest) := splitNetloc rest
  if checkBrackets netloc && checkNetloc netloc then
    let (rest, _, fragment) := partition '#' rest
    let (path, _, query) := partition '?' rest
    some ⟨scheme, netloc, path, query, fragment⟩
  else none

end Splitting

/-- urlunsplit, for a URL with a netloc. -/
def urlUnsplit (u : Url) : List Char :=
  (if u.scheme = [] then [] else u.scheme ++ [':']) ++ ['/', '/'] ++ u.netloc ++
    (if u.path ≠ [] ∧ u.path.head? ≠ some '/' then '/' :: u.path else u.path) ++
    (if u.query = [] then [] else '?' :: u.query) ++
    (if u.fragment = [] then [] else '#' :: u.fragment)

namespace Url
variable (u : Url)

/-- What stands behind the user info. -/
def hostInfo : List Char := (rpartition '@' u.netloc).2.2

/-- The host and the port of _hostinfo. -/
def hostPort : List Char × List Char :=
  let (_, open_, bracketed) := partition '[' u.hostInfo
  if open_ then
    let (host, _, port) := partition ']' bracketed
    (host, (partition ':' port).2.2)
  else ((partition ':' u.hostInfo).1, (partition ':' u.hostInfo).2.2)

def username : Option (List Char) :=
  let (userInfo, found, _) := rpartition '@' u.netloc
  if found then some (partition ':' userInfo).1 else none

def password : Option (List Char) :=
  let (userInfo, found, _) := rpartition '@' u.netloc
  if found ∧ (partition ':' userInfo).2.1 then some (partition ':' userInfo).2.2 else none

def hostname [UnicodeTables] : Option (List Char) :=
  let host := u.hostPort.1
  if host = [] then none
  else
    let (name, zoned, zone) := partition '%' host
    some (lower name ++ if zoned then '%' :: zone else [])

/-- int(digits) fails for more digits than this. -/
def maxPortDigits : Nat := 4300

/-- The port, where none is a ValueError. -/
def port : Option (Option Nat) :=
  let digits := u.hostPort.2
  if digits = [] then some none
  else if ¬digits.all Char.isDigit ∨ maxPortDigits < digits.length then none
  else if ofDigits 10 digits ≤ 65535 then some (some (ofDigits 10 digits))
  else none

end Url

section Pieces

theorem schemeChar_kept {c : Char} (char : schemeChar c = true) :
    c ≠ ':' ∧ 32 < c.toNat ∧ ['\t', '\r', '\n'].contains c = false := by
  have low : ∀ n ≤ 32, schemeChar (Char.ofNat n) = false := by decide +kernel
  have shows : 32 < c.toNat := by
    refine Nat.lt_of_not_le fun blank => ?_
    have none := low c.toNat blank
    rw [Char.ofNat_toNat, char] at none
    cases none
  refine ⟨?_, shows, ?_⟩
  · rintro rfl
    exact absurd char (by decide)
  · refine Bool.eq_false_iff.mpr fun member => ?_
    simp only [List.contains_eq_mem, List.mem_cons, List.not_mem_nil, or_false,
      decide_eq_true_eq] at member
    rcases member with rfl | rfl | rfl <;> exact absurd shows (by decide)

theorem schemeChar_lower {c : Char} (char : schemeChar c = true) :
    schemeChar c.toLower = true ∧ c.toLower.toLower = c.toLower ∧
      (c.isAlpha = true → c.toLower.isAlpha = true) := by
  have ascii : c.toNat < 128 := by
    have shape : schemeChar c = (((decide (c.val ≥ 'A'.val ∧ c.val ≤ 'Z'.val) ||
        (decide (c.val ≥ 'a'.val) && decide (c.val ≤ 'z'.val))) ||
        (decide (c.val ≥ '0'.val) && decide (c.val ≤ '9'.val))) || c == '+' || c == '-' ||
        c == '.') := rfl
    rw [shape] at char
    simp only [Bool.or_eq_true, Bool.and_eq_true, decide_eq_true_eq, beq_iff_eq, ge_iff_le,
      UInt32.le_iff_toNat_le] at char
    have value : c.toNat = c.val.toNat := rfl
    have upper : 'Z'.val.toNat = 90 ∧ 'z'.val.toNat = 122 ∧ '9'.val.toNat = 57 := by decide
    rcases char with ((((capital | small) | digit) | rfl) | rfl) | rfl
    · omega
    · omega
    · omega
    all_goals decide
  have all : ∀ n < 128, schemeChar (Char.ofNat n) = true →
      schemeChar (Char.ofNat n).toLower = true ∧
        ((Char.ofNat n).isAlpha = true → (Char.ofNat n).toLower.isAlpha = true) := by
    decide +kernel
  have one := all c.toNat ascii
  rw [Char.ofNat_toNat] at one
  exact ⟨(one char).1, (ascii_lower ascii).2.1, (one char).2⟩

theorem cleaned_self {url : List Char} {c : Char} (first : url.head? = some c)
    (shows : 32 < c.toNat) (kept : ∀ c ∈ url, ['\t', '\r', '\n'].contains c = false) :
    cleaned url = url := by
  unfold cleaned
  cases url with
  | nil => rfl
  | cons d rest =>
    cases Option.some.inj first
    rw [List.dropWhile_cons_of_neg (by simpa using shows)]
    exact List.filter_eq_self.mpr fun d member => by rw [kept d member]; rfl

theorem splitScheme_written {scheme rest : List Char}
    (letter : scheme.head?.any Char.isAlpha = true)
    (chars : ∀ c ∈ scheme, schemeChar c = true ∧ c.toLower = c) :
    splitScheme (scheme ++ ':' :: rest) = (scheme, rest) := by
  unfold splitScheme
  rw [partition_found fun member => (schemeChar_kept (chars ':' member).1).1 rfl]
  have all : scheme.all schemeChar = true := List.all_eq_true.mpr fun c member => (chars c member).1
  have low : scheme.map Char.toLower = scheme :=
    (List.map_congr_left fun c member => (chars c member).2).trans (List.map_id _)
  simp only [letter, all, low, and_self, if_true]

theorem splitNetloc_written {netloc rest : List Char}
    (plain : ∀ c ∈ netloc, endsNetloc c = false) (path : rest.head? = some '/') :
    splitNetloc ('/' :: '/' :: (netloc ++ rest)) = (netloc, rest) := by
  unfold splitNetloc
  simp only [List.take_succ_cons, List.take_zero, if_true, List.drop_succ_cons, List.drop_zero]
  have all : ∀ c ∈ netloc, (!endsNetloc c) = true := fun c member => by rw [plain c member]; rfl
  rw [List.takeWhile_append_of_pos all, List.dropWhile_append_of_pos all]
  cases rest with
  | nil => cases path
  | cons d rest =>
    cases Option.some.inj path
    have stop : (!endsNetloc '/') = false := by decide
    rw [List.takeWhile_cons, List.dropWhile_cons, stop]
    exact congrArg (·, _) (List.append_nil _)

theorem splitNetloc_parts (url : List Char) :
    (∀ c ∈ (splitNetloc url).1, endsNetloc c = false) ∧
      ((splitNetloc url).1 ≠ [] → (splitNetloc url).2.head?.all endsNetloc = true) ∧
      ∀ c ∈ (splitNetloc url).1 ++ (splitNetloc url).2, c ∈ url := by
  unfold splitNetloc
  split
  · refine ⟨fun c member => ?_, fun _ => ?_, fun c member => ?_⟩
    · simpa using List.mem_takeWhile_imp member
    · have stop := List.head?_dropWhile_not (!endsNetloc ·) (url.drop 2)
      cases first : ((url.drop 2).dropWhile (!endsNetloc ·)).head? with
      | none => rfl
      | some c =>
        rw [first] at stop
        simpa using stop
    · rw [List.takeWhile_append_dropWhile] at member
      exact List.mem_of_mem_drop member
  · exact ⟨fun c member => absurd member List.not_mem_nil, fun shows => absurd rfl shows,
      fun c member => member⟩

/-- A path starts at its slash, or there is none before the query and the fragment. -/
theorem path_start {rest : List Char} (start : rest.head?.all endsNetloc = true) :
    (partition '?' (partition '#' rest).1).1 = [] ∨
      (partition '?' (partition '#' rest).1).1.head? = some '/' := by
  unfold partition
  dsimp only
  cases rest with
  | nil => exact .inl rfl
  | cons c rest =>
    simp only [List.head?_cons, Option.all_some, endsNetloc, Bool.or_eq_true, beq_iff_eq] at start
    rcases start with (rfl | rfl) | rfl
    · exact .inr (by simp)
    · exact .inl (by simp)
    · exact .inl (by simp)

/-- A scheme is read back, unless there is none. -/
structure SchemeRead (scheme : List Char) : Prop where
  letter : scheme.head?.any Char.isAlpha = true
  chars : ∀ c ∈ scheme, schemeChar c = true ∧ c.toLower = c

theorem splitScheme_read (url : List Char) :
    (splitScheme url).1 = [] ∨ SchemeRead (splitScheme url).1 := by
  unfold splitScheme
  dsimp only
  split
  · rename_i written
    obtain ⟨_, letter, chars⟩ := written
    generalize (partition ':' url).1 = front at *
    have each := List.all_eq_true.mp chars
    refine .inr ⟨?_, fun c member => ?_⟩
    · cases front with
      | nil => cases letter
      | cons c rest => exact (schemeChar_lower (each c List.mem_cons_self)).2.2 letter
    · obtain ⟨d, inFront, rfl⟩ := List.mem_map.mp member
      exact ⟨(schemeChar_lower (each d inFront)).1, (schemeChar_lower (each d inFront)).2.1⟩
  · exact .inl rfl

theorem splitScheme_chars {url : List Char} {c : Char} (member : c ∈ (splitScheme url).2) :
    c ∈ url := by
  unfold splitScheme at member
  dsimp only at member
  split at member
  · exact partition_back member
  · exact member

theorem cleaned_chars {url : List Char} : ∀ c ∈ cleaned url, ['\t', '\r', '\n'].contains c = false :=
  fun c member => by simpa using (List.mem_filter.mp member).2

end Pieces

section Texts
variable [UrlTables]

/-- The parts of a URL that are read back from its text. -/
structure Url.Readable (u : Url) : Prop where
  scheme : SchemeRead u.scheme
  netloc : ∀ c ∈ u.netloc, endsNetloc c = false
  brackets : checkBrackets u.netloc = true
  normal : checkNetloc u.netloc = true
  path : u.path.head? = some '/'
  pathEnds : '?' ∉ u.path ∧ '#' ∉ u.path
  query : '#' ∉ u.query
  whole : u.fragment = []
  kept : ∀ c ∈ u.netloc ++ u.path ++ u.query, ['\t', '\r', '\n'].contains c = false

/-- A URL is read back from its text. -/
theorem urlSplit_unsplit {u : Url} (ok : u.Readable) : urlSplit (urlUnsplit u) = some u := by
  obtain ⟨scheme, netloc, path, query, fragment⟩ := u
  obtain ⟨⟨letter, chars⟩, plain, brackets, normal, slash, ⟨noQuery, noHash⟩, query_hash, whole,
    kept⟩ := ok
  dsimp only at letter chars plain brackets normal slash noQuery noHash query_hash whole kept
  subst whole
  let tail := path ++ if query = [] then [] else '?' :: query
  have written : urlUnsplit ⟨scheme, netloc, path, query, []⟩ =
      scheme ++ ':' :: '/' :: '/' :: (netloc ++ tail) := by
    have some_scheme : scheme ≠ [] := by
      rintro rfl
      cases letter
    unfold urlUnsplit
    simp [some_scheme, slash, tail]
  have head : tail.head? = some '/' := by
    rw [List.head?_append, slash]
    rfl
  have tail_chars : ∀ d ∈ tail, d ∈ path ∨ d = '?' ∨ d ∈ query := fun d member => by
    rcases List.mem_append.mp member with front | back
    · exact .inl front
    · by_cases empty : query = []
      · rw [if_pos empty] at back
        cases back
      · rw [if_neg empty] at back
        exact .inr (List.mem_cons.mp back)
  have tail_kept : ∀ d ∈ netloc ++ tail, ['\t', '\r', '\n'].contains d = false := fun d member => by
    rcases List.mem_append.mp member with front | back
    · exact kept d (by simp [front])
    · rcases tail_chars d back with inPath | rfl | inQuery
      · exact kept d (by simp [inPath])
      · decide
      · exact kept d (by simp [inQuery])
  have clean : cleaned (scheme ++ ':' :: '/' :: '/' :: (netloc ++ tail)) =
      scheme ++ ':' :: '/' :: '/' :: (netloc ++ tail) := by
    cases scheme with
    | nil => cases letter
    | cons c rest =>
      refine cleaned_self rfl (schemeChar_kept (chars c List.mem_cons_self).1).2.1 fun d member => ?_
      rcases List.mem_append.mp member with front | back
      · exact (schemeChar_kept (chars d front).1).2.2
      · simp only [List.mem_cons] at back
        rcases back with rfl | rfl | rfl | back
        · decide
        · decide
        · decide
        · exact tail_kept d back
  unfold urlSplit
  rw [written, clean, splitScheme_written letter chars]
  dsimp only
  rw [splitNetloc_written plain head]
  simp only [brackets, normal, Bool.and_self, if_true]
  have noHash_tail : '#' ∉ tail := fun member => by
    rcases tail_chars '#' member with inPath | other | inQuery
    · exact noHash inPath
    · cases other
    · exact query_hash inQuery
  rw [partition_missing noHash_tail]
  by_cases empty : query = []
  · have whole : tail = path := by simp [tail, empty]
    simp only [whole, partition_missing noQuery, empty]
  · have both : tail = path ++ '?' :: query := by simp [tail, empty]
    simp only [both, partition_found noQuery]

/-- What the parts of a URL keep to when it was taken apart. -/
structure Url.Parts (u : Url) : Prop where
  scheme : u.scheme = [] ∨ SchemeRead u.scheme
  netloc : ∀ c ∈ u.netloc, endsNetloc c = false
  brackets : checkBrackets u.netloc = true
  normal : checkNetloc u.netloc = true
  path : u.netloc ≠ [] → u.path = [] ∨ u.path.head? = some '/'
  pathEnds : '?' ∉ u.path ∧ '#' ∉ u.path
  query : '#' ∉ u.query
  kept : ∀ c ∈ u.netloc ++ u.path ++ u.query, ['\t', '\r', '\n'].contains c = false

theorem urlSplit_parts {url : List Char} {u : Url} (split : urlSplit url = some u) : u.Parts := by
  unfold urlSplit at split
  dsimp only at split
  obtain ⟨plain, ends, chars⟩ := splitNetloc_parts (splitScheme (cleaned url)).2
  generalize (splitNetloc (splitScheme (cleaned url)).2).1 = netloc at *
  generalize (splitNetloc (splitScheme (cleaned url)).2).2 = rest at *
  have clean : ∀ c ∈ netloc ++ rest, ['\t', '\r', '\n'].contains c = false := fun c member =>
    cleaned_chars c (splitScheme_chars (chars c member))
  split at split
  · rename_i checked
    obtain ⟨brackets, normal⟩ := Bool.and_eq_true_iff.mp checked
    cases Option.some.inj split
    refine ⟨splitScheme_read _, plain, brackets, normal, fun shows => ?_,
      ⟨partition_plain, fun member => ?_⟩, fun member => ?_, fun c member => ?_⟩
    · exact path_start (ends shows)
    · exact partition_plain (partition_front member)
    · exact partition_plain (partition_back member)
    · refine clean c ?_
      simp only [List.mem_append] at member ⊢
      rcases member with (front | path) | query
      · exact .inl front
      · exact .inr (partition_front (partition_front path))
      · exact .inr (partition_front (partition_back query))
  · cases split

end Texts

section Hosts

theorem addressChar_plain {c : Char} (char : addressChar c = true) :
    c.toNat < 128 ∧ endsNetloc c = false ∧ ['\t', '\r', '\n'].contains c = false ∧
      c ∉ ['@', '[', ']', '%', 'v'] ∧ c.toLower = c := by
  have all : ∀ d ∈ '.' :: ':' :: "0123456789abcdef".toList, d.toNat < 128 ∧ endsNetloc d = false ∧
      ['\t', '\r', '\n'].contains d = false ∧ d ∉ ['@', '[', ']', '%', 'v'] ∧ d.toLower = d := by
    decide
  refine all c ?_
  simpa [addressChar, or_assoc] using char

/-- A port behind a host, as it is written. -/
def portText (port : Option Nat) : List Char := port.elim [] fun n => ':' :: Nat.toDigits 10 n

theorem portText_chars {port : Option Nat} {c : Char} (member : c ∈ portText port) :
    addressChar c = true := by
  cases port with
  | none => cases member
  | some n =>
    rcases List.mem_cons.mp member with rfl | digit
    · rfl
    · obtain ⟨d, rfl⟩ := digits_small 10 (by decide) (by decide) n c digit
      exact digit_addressChar d

theorem portText_cut (port : Option Nat) :
    (partition ':' (portText port)).2.2 = port.elim [] (Nat.toDigits 10) := by
  cases port with
  | none => rfl
  | some n =>
    have plain : ':' ∉ ([] : List Char) := List.not_mem_nil
    exact congrArg (·.2.2) (partition_found plain)

/-- The host and the port are those that a netloc was written with. -/
structure Url.Names (u : Url) (host : List Char) (port : Option Nat) : Prop where
  hostPort : u.hostPort = (host, port.elim [] (Nat.toDigits 10))
  username : u.username = none
  password : u.password = none

variable {u : Url} {host : List Char} {port : Option Nat}

theorem user_none (plain : '@' ∉ u.netloc) :
    u.hostInfo = u.netloc ∧ u.username = none ∧ u.password = none := by
  unfold Url.hostInfo Url.username Url.password
  rw [rpartition_missing plain]
  exact ⟨rfl, rfl, rfl⟩

theorem names_plain (shape : u.netloc = host ++ portText port)
    (chars : ∀ c ∈ host, addressChar c = true) (colon : ':' ∉ host) : u.Names host port := by
  have netloc_chars : ∀ c ∈ u.netloc, addressChar c = true := fun c member => by
    rw [shape] at member
    rcases List.mem_append.mp member with front | back
    · exact chars c front
    · exact portText_chars back
  have solid : ∀ c ∈ ['@', '['], c ∉ u.netloc := fun c bad member =>
    (addressChar_plain (netloc_chars c member)).2.2.2.1 (by
      rcases List.mem_cons.mp bad with rfl | rest
      · exact List.mem_cons_self
      · rw [List.mem_singleton.mp rest]
        decide)
  obtain ⟨info, user, secret⟩ := user_none (solid '@' (by decide))
  refine ⟨?_, user, secret⟩
  unfold Url.hostPort
  rw [info, partition_missing (solid '[' (by decide))]
  dsimp only
  rw [shape]
  cases port with
  | none =>
    rw [show portText none = [] from rfl, List.append_nil, partition_missing colon]
    rfl
  | some n =>
    rw [show portText (some n) = ':' :: Nat.toDigits 10 n from rfl, partition_found colon]
    rfl

theorem names_bracketed (shape : u.netloc = '[' :: (host ++ ']' :: portText port))
    (chars : ∀ c ∈ host, addressChar c = true) : u.Names host port := by
  have bracket : ']' ∉ host := fun member =>
    (addressChar_plain (chars ']' member)).2.2.2.1 (by decide)
  have solid : '@' ∉ u.netloc := fun member => by
    rw [shape] at member
    rcases List.mem_cons.mp member with same | rest
    · cases same
    · rcases List.mem_append.mp rest with front | back
      · exact (addressChar_plain (chars '@' front)).2.2.2.1 (by decide)
      · rcases List.mem_cons.mp back with same | inPort
        · cases same
        · exact (addressChar_plain (portText_chars inPort)).2.2.2.1 (by decide)
  obtain ⟨info, user, secret⟩ := user_none solid
  refine ⟨?_, user, secret⟩
  unfold Url.hostPort
  rw [info, shape, ← List.nil_append ('[' :: (host ++ ']' :: portText port)),
    partition_found List.not_mem_nil]
  simp only [if_true]
  rw [partition_found bracket]
  dsimp only
  rw [portText_cut]

theorem checkNetloc_ascii [UrlTables] {netloc : List Char} (ascii : ∀ c ∈ netloc, c.toNat < 128) :
    checkNetloc netloc = true := by
  unfold checkNetloc
  rw [if_pos]
  exact List.all_eq_true.mpr fun c member => decide_eq_true (ascii c member)

theorem checkBrackets_plain {netloc : List Char} (chars : ∀ c ∈ netloc, addressChar c = true) :
    checkBrackets netloc = true := by
  have open_ : '[' ∉ netloc := fun member => (addressChar_plain (chars _ member)).2.2.2.1 (by decide)
  have close : ']' ∉ netloc := fun member => (addressChar_plain (chars _ member)).2.2.2.1 (by decide)
  simp [checkBrackets, open_, close]

theorem checkBrackets_bracketed {value : Fin (2 ^ 128)} {scope : Option ScopeId}
    (six : ipAddress host = some (.v6 value scope)) (chars : ∀ c ∈ host, addressChar c = true) :
    checkBrackets ('[' :: (host ++ ']' :: portText port)) = true := by
  have bracket : ']' ∉ host := fun member =>
    (addressChar_plain (chars ']' member)).2.2.2.1 (by decide)
  have solid : '@' ∉ '[' :: (host ++ ']' :: portText port) := fun member => by
    rcases List.mem_cons.mp member with same | rest
    · cases same
    · rcases List.mem_append.mp rest with front | back
      · exact (addressChar_plain (chars '@' front)).2.2.2.1 (by decide)
      · rcases List.mem_cons.mp back with same | inPort
        · cases same
        · exact (addressChar_plain (portText_chars inPort)).2.2.2.1 (by decide)
  have literal : checkBracketedHost host = true := by
    have other : host.head? ≠ some 'v' := fun first =>
      (addressChar_plain (chars 'v' (List.mem_of_head? first))).2.2.2.1 (by decide)
    unfold checkBracketedHost
    rw [if_neg other, six]
  have after : (portText port == [] || (portText port).head? == some ':') = true := by
    cases port with
    | none => rfl
    | some n => rfl
  have both : '[' ∈ '[' :: (host ++ ']' :: portText port) ∧
      ']' ∈ '[' :: (host ++ ']' :: portText port) := by simp
  unfold checkBrackets checkBracketedNetloc
  rw [if_pos both, rpartition_missing solid]
  dsimp only
  rw [← List.nil_append ('[' :: (host ++ ']' :: portText port)), partition_found List.not_mem_nil]
  simp only [if_true]
  rw [partition_found bracket]
  simp only [after, literal]
  rfl

/-- A host that is written in the characters of addresses is read in them. -/
theorem Url.Names.hostname_eq [UnicodeTables] (names : u.Names host port) (shows : host ≠ [])
    (chars : ∀ c ∈ host, addressChar c = true) : u.hostname = some host := by
  have percent : '%' ∉ host := fun member =>
    (addressChar_plain (chars '%' member)).2.2.2.1 (by decide)
  have low : lower host = host := by
    unfold lower
    rw [List.flatMap_congr (g := fun c => [c]) fun c member => ?_]
    · exact List.flatMap_singleton' host
    · obtain ⟨ascii, _, _, _, same⟩ := addressChar_plain (chars c member)
      rw [if_pos ascii, same]
  unfold Url.hostname
  rw [names.hostPort]
  dsimp only
  rw [if_neg shows, partition_missing percent, low]
  exact congrArg some (List.append_nil host)

theorem Url.Names.port_eq (names : u.Names host port) (fits : ∀ n ∈ port, n ≤ 65535) :
    u.port = some port := by
  unfold Url.port
  rw [names.hostPort]
  cases port with
  | none => rfl
  | some n =>
    have bound := fits n rfl
    obtain ⟨value, _, _⟩ := digits_read 10 (by decide) (by decide) n
    have digits : (Nat.toDigits 10 n).all Char.isDigit = true := List.all_eq_true.mpr fun c member =>
      Nat.isDigit_of_mem_toDigits (by decide) (by decide) member
    have short : (Nat.toDigits 10 n).length ≤ 5 :=
      (Nat.length_toDigits_le_iff (by decide) (by decide)).mpr (by omega)
    have few : ¬Url.maxPortDigits < (Nat.toDigits 10 n).length := by
      unfold Url.maxPortDigits
      omega
    simp only [Option.elim_some, Nat.toDigits_ne_nil, digits, few, not_true_eq_false, or_self,
      if_false, value, bound, if_true]

end Hosts
end Python
