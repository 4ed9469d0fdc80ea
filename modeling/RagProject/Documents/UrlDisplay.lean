import RagProject.Documents.UrlFetch

/-! The form of a URL that is shown and stored with a document. -/
namespace RagProject.Documents
open Python

section Chars

/-- A mark of a URL: no letter, and none of the characters of addresses. -/
structure Mark (x : Char) : Prop where
  small : x.toNat < 128
  letter : x.isAlpha = false
  address : addressChar x = false
  percent : x ≠ '%'
  bracket : x ≠ '[' ∧ x ≠ ']'

theorem mark_at : Mark '@' := ⟨by decide, by decide, by decide, by decide, by decide⟩
theorem mark_slash : Mark '/' := ⟨by decide, by decide, by decide, by decide, by decide⟩
theorem mark_query : Mark '?' := ⟨by decide, by decide, by decide, by decide, by decide⟩
theorem mark_hash : Mark '#' := ⟨by decide, by decide, by decide, by decide, by decide⟩

variable {x : Char}

/-- A mark is not made by lowering a text. -/
theorem lower_mark [UrlTables] (mark : Mark x) {s : List Char} (free : x ∉ s) : x ∉ lower s := by
  intro member
  obtain ⟨c, inside, made⟩ := List.mem_flatMap.mp member
  by_cases ascii : c.toNat < 128
  · rw [if_pos ascii] at made
    have all : ∀ n < 128, (Char.ofNat n).toLower = Char.ofNat n ∨
        (Char.ofNat n).toLower.isAlpha = true := by decide +kernel
    have one := all c.toNat ascii
    rw [Char.ofNat_toNat, ← List.mem_singleton.mp made] at one
    rcases one with same | letter
    · exact free (same ▸ inside)
    · rw [mark.letter] at letter
      cases letter
  · rw [if_neg ascii] at made
    have letter := UrlTables.letters c (Nat.le_of_not_lt ascii) x made mark.small
    rw [mark.letter] at letter
    cases letter

theorem portText_mark (mark : Mark x) (port : Option Nat) : x ∉ portText port := fun member => by
  have char := portText_chars member
  rw [mark.address] at char
  cases char

theorem hostForNetloc_mark (mark : Mark x) {host : List Char} (free : x ∉ host) :
    x ∉ hostForNetloc host := by
  have written {ip : IpAddress} (read : ipAddress host = some ip) : x ∉ ip.compressed :=
    fun member => by
      rcases written_chars member with char | ⟨scope, there, same | inside⟩
      · rw [mark.address] at char
        cases char
      · exact mark.percent same
      · exact free (scope_chars read there x inside)
  unfold hostForNetloc
  split
  · exact free
  · rename_i value scope read
    intro member
    rcases List.mem_append.mp member with front | back
    · rcases List.mem_cons.mp front with same | inside
      · exact mark.bracket.1 same
      · exact written read inside
    · exact mark.bracket.2 (List.mem_singleton.mp back)
  · rename_i value read
    exact written read

theorem hostPort_chars {u : Url} {c : Char} (member : c ∈ u.hostPort.1) : c ∈ u.hostInfo := by
  unfold Url.hostPort at member
  dsimp only at member
  split at member
  · exact partition_back (partition_front member)
  · exact partition_front member

/-- No mark that ends a netloc is in a host name, and no @. -/
theorem hostname_mark [UrlTables] (mark : Mark x) {u : Url}
    (plain : ∀ c ∈ u.netloc, endsNetloc c = false) (ends : x = '@' ∨ endsNetloc x = true)
    {host : List Char} (named : u.hostname = some host) : x ∉ host := by
  have free : x ∉ u.hostPort.1 := fun member => by
    have inside := hostPort_chars member
    rcases ends with rfl | stop
    · exact rpartition_plain inside
    · rw [plain x (rpartition_back inside)] at stop
      cases stop
  unfold Url.hostname at named
  dsimp only at named
  split at named
  · cases named
  · cases named
    intro member
    rcases List.mem_append.mp member with front | back
    · exact lower_mark mark (fun inside => free (partition_front inside)) front
    · split at back
      · rcases List.mem_cons.mp back with same | zone
        · exact mark.percent same
        · exact free (partition_back zone)
      · cases back

theorem hostname_netloc [UrlTables] {u : Url} {host : List Char} (named : u.hostname = some host) :
    u.netloc ≠ [] := by
  intro empty
  unfold Url.hostname Url.hostPort Url.hostInfo at named
  rw [empty] at named
  cases named

/-- The path of a URL, or a slash where there is none. -/
theorem default_path {path : List Char} (start : path = [] ∨ path.head? = some '/')
    (ends : '?' ∉ path ∧ '#' ∉ path) :
    (if path = [] then ['/'] else path).head? = some '/' ∧
      '?' ∉ (if path = [] then ['/'] else path) ∧ '#' ∉ (if path = [] then ['/'] else path) := by
  by_cases empty : path = []
  · rw [if_pos empty]
    decide
  · rw [if_neg empty]
    exact ⟨start.resolve_left empty, ends⟩

end Chars

theorem ends_mark {x : Char} (ends : x = '@' ∨ endsNetloc x = true) : Mark x ∧ schemeChar x = false := by
  unfold endsNetloc at ends
  simp only [Bool.or_eq_true, beq_iff_eq] at ends
  rcases ends with rfl | (rfl | rfl) | rfl
  · exact ⟨mark_at, by decide⟩
  · exact ⟨mark_slash, by decide⟩
  · exact ⟨mark_query, by decide⟩
  · exact ⟨mark_hash, by decide⟩

variable [UrlTables]

/-- A URL as it is shown: without user info, query and fragment, and without a segment of its path
that looks like a secret. -/
structure Displayed (text scheme netloc path : List Char) : Prop where
  shape : text = urlUnsplit ⟨scheme, netloc, path, [], []⟩
  front : ∀ x ∈ scheme ++ netloc, x ≠ '@' ∧ endsNetloc x = false
  slash : path.head? = some '/'
  pathEnds : '?' ∉ path ∧ '#' ∉ path
  secrets : ∀ segment ∈ path.splitOn '/', segment = "redacted".toList ∨
    isSecretPathSegment segment = false

def redactSegment (segment : List Char) : List Char :=
  if isSecretPathSegment segment then "redacted".toList else segment

theorem redacted_path {path : List Char} (slash : path.head? = some '/') (query : '?' ∉ path)
    (hash : '#' ∉ path) :
    (redactUrlPathForDisplay path).head? = some '/' ∧ '?' ∉ redactUrlPathForDisplay path ∧
      '#' ∉ redactUrlPathForDisplay path ∧
      ∀ segment ∈ (redactUrlPathForDisplay path).splitOn '/', segment = "redacted".toList ∨
        isSecretPathSegment segment = false := by
  have chars : ∀ part ∈ (path.splitOn '/').map redactSegment, ∀ c ∈ part,
      c ≠ '?' ∧ c ≠ '#' ∧ c ≠ '/' := by
    intro part member c inside
    obtain ⟨segment, there, rfl⟩ := List.mem_map.mp member
    unfold redactSegment at inside
    split at inside
    · have word : ∀ d ∈ "redacted".toList, d ≠ '?' ∧ d ≠ '#' ∧ d ≠ '/' := by decide
      exact word c inside
    · obtain ⟨inPath, other⟩ := splitOn_chars there c inside
      refine ⟨?_, ?_, other⟩
      · rintro rfl
        exact query inPath
      · rintro rfl
        exact hash inPath
  have free {x : Char} (between : x ≠ '/')
      (none : ∀ part ∈ (path.splitOn '/').map redactSegment, x ∉ part) :
      x ∉ ['/'].intercalate ((path.splitOn '/').map redactSegment) := fun member => by
    rcases intercalate_chars member with same | ⟨part, inside, there⟩
    · exact between same
    · exact none part inside there
  have first : (['/'].intercalate ((path.splitOn '/').map redactSegment)).head? = some '/' := by
    cases path with
    | nil => cases slash
    | cons c rest =>
      cases Option.some.inj slash
      have none : '/' ∉ ([] : List Char) := List.not_mem_nil
      have cut : ('/' :: rest).splitOn '/' = [] :: rest.splitOn '/' :=
        List.splitOn_append_cons_self_of_not_mem none rest
      cases parts : rest.splitOn '/' with
      | nil => exact absurd parts (List.splitOn_ne_nil '/' rest)
      | cons part more =>
        rw [cut, parts, List.map_cons, List.map_cons, List.intercalate_cons_cons]
        rfl
  have whole : redactUrlPathForDisplay path =
      ['/'].intercalate ((path.splitOn '/').map redactSegment) := by
    unfold redactUrlPathForDisplay
    refine if_neg fun empty => ?_
    rw [show (path.splitOn '/').map (fun segment =>
      if isSecretPathSegment segment then "redacted".toList else segment) =
      (path.splitOn '/').map redactSegment from rfl] at empty
    rw [empty] at first
    cases first
  rw [whole]
  refine ⟨first, free (by decide) fun part member inside => (chars part member _ inside).1 rfl,
    free (by decide) fun part member inside => (chars part member _ inside).2.1 rfl, ?_⟩
  rw [List.splitOn_intercalate '/' (fun part member inside => (chars part member _ inside).2.2 rfl)
    (by simp [List.splitOn_ne_nil])]
  intro part member
  obtain ⟨segment, _, rfl⟩ := List.mem_map.mp member
  unfold redactSegment
  cases secret : isSecretPathSegment segment with
  | true => exact .inl rfl
  | false => exact .inr secret

/-- Whatever URL is given, what is shown of it keeps its user info, query and fragment back. -/
theorem redact_displayed (url : List Char) : redactUrlForDisplay url = "redacted".toList ∨
    ∃ scheme netloc path, Displayed (redactUrlForDisplay url) scheme netloc path := by
  cases split : urlSplit url with
  | none =>
    refine .inl ?_
    unfold redactUrlForDisplay
    rw [split]
  | some parsed =>
    obtain ⟨scheme, plain, _, _, path, pathEnds, _, _⟩ := urlSplit_parts split
    cases named : parsed.hostname with
    | none =>
      refine .inl ?_
      unfold redactUrlForDisplay
      rw [split]
      simp [named, lower]
    | some host =>
      by_cases empty : lower host = []
      · refine .inl ?_
        unfold redactUrlForDisplay
        rw [split]
        simp [named, empty]
      · cases read : parsed.port with
        | none =>
          refine .inl ?_
          unfold redactUrlForDisplay
          rw [split]
          simp [named, empty, read]
        | some port =>
          have written : redactUrlForDisplay url = urlUnsplit ⟨lower parsed.scheme,
              withPort (hostForNetloc (lower host)) port,
              redactUrlPathForDisplay (if parsed.path = [] then ['/'] else parsed.path), [], []⟩ := by
            unfold redactUrlForDisplay
            rw [split]
            simp [named, empty, read]
          obtain ⟨start, noQuery, noHash⟩ := default_path (path (hostname_netloc named)) pathEnds
          obtain ⟨slash, query, hash, secrets⟩ := redacted_path start noQuery noHash
          refine .inr ⟨_, _, _, written, fun x member => ?_, slash, ⟨query, hash⟩, secrets⟩
          refine Decidable.not_not.mp fun other => ?_
          have ends : x = '@' ∨ endsNetloc x = true := by
            rwa [not_and_or, Decidable.not_not, Bool.not_eq_false] at other
          obtain ⟨mark, apart⟩ := ends_mark ends
          rcases List.mem_append.mp member with inScheme | inNetloc
          · refine lower_mark mark (fun inside => ?_) inScheme
            rcases scheme with none | ⟨_, chars⟩
            · rw [none] at inside
              cases inside
            · rw [(chars x inside).1] at apart
              cases apart
          · rcases List.mem_append.mp inNetloc with inHost | inPort
            · exact hostForNetloc_mark mark (lower_mark mark (hostname_mark mark plain ends named))
                inHost
            · exact portText_mark mark port inPort

end RagProject.Documents
