import RagProject.Documents.UrlDisplay

/-! A fetch connects to nothing but addresses that its policies allow, whatever the resolver answers
and wherever the servers redirect to. -/
namespace RagProject.Documents
open Python

/-- No credential is given, or an empty one. -/
theorem empty_credential {credential : Option (List Char)} (plain : ¬credential.any (· ≠ [])) :
    ∀ text ∈ credential, text = [] := by
  rintro text ⟨⟩
  simpa using plain

theorem port_bound {u : Url} {port : Option Nat} (read : u.port = some port) :
    ∀ n ∈ port, n ≤ 65535 := by
  rintro n ⟨⟩
  unfold Url.port at read
  dsimp only at read
  split at read
  · cases read
  · split at read
    · cases read
    · split at read
      · rename_i fits
        cases read
        exact fits
      · cases read

section Places
variable [UrlTables] {settings : UrlFetchSettings} {place : Place}

/-- What is known of a place that a URL was located at. -/
structure PlaceAllowed (settings : UrlFetchSettings) (place : Place) : Prop where
  scheme : place.scheme ∈ settings.allowedSchemes
  metadata : policyName place.hostname ∉ metadataHostnames
  localName : policyName place.hostname ≠ "localhost".toList ∧
    ¬".localhost".toList <:+ policyName place.hostname ∧
    ¬".local".toList <:+ policyName place.hostname
  credentials : ∃ url parsed, urlSplit url = some parsed ∧
    (∀ name ∈ parsed.username, name = []) ∧ ∀ secret ∈ parsed.password, secret = []
  port : ∀ n ∈ place.explicitPort, n ≤ 65535
  path : place.path.head? = some '/'
  pathEnds : '?' ∉ place.path ∧ '#' ∉ place.path
  query : '#' ∉ place.query
  kept : ∀ c ∈ place.path ++ place.query, ['\t', '\r', '\n'].contains c = false

theorem allowed_name {hostname : List Char} (allowed : hostnameAllowed hostname = true) :
    policyName hostname ∉ metadataHostnames ∧ policyName hostname ≠ "localhost".toList ∧
      ¬".localhost".toList <:+ policyName hostname ∧ ¬".local".toList <:+ policyName hostname := by
  unfold hostnameAllowed at allowed
  simp only [Bool.and_eq_true, Bool.not_eq_true', bne_iff_ne, List.contains_eq_mem,
    decide_eq_false_iff_not] at allowed
  obtain ⟨⟨⟨metadata, whole⟩, localhost⟩, localName⟩ := allowed
  refine ⟨metadata, whole, fun suffix => ?_, fun suffix => ?_⟩
  · rw [List.isSuffixOf_iff_suffix.mpr suffix] at localhost
    cases localhost
  · rw [List.isSuffixOf_iff_suffix.mpr suffix] at localName
    cases localName

theorem locate_allowed {url : List Char} (located : locate settings url = .ok place) :
    PlaceAllowed settings place := by
  unfold locate at located
  cases split : urlSplit (strip url) with
  | none =>
    rw [split] at located
    cases located
  | some parsed =>
    rw [split] at located
    dsimp only at located
    obtain ⟨_, _, _, _, path, pathEnds, query, kept⟩ := urlSplit_parts split
    split at located
    · cases located
    rename_i scheme
    split at located
    · cases located
    rename_i plain
    split at located
    · cases located
    rename_i host named
    split at located
    · cases located
    rename_i hostname normalized
    split at located
    · cases located
    rename_i allowed
    split at located
    · cases located
    rename_i port read
    cases located
    rw [not_or] at plain
    obtain ⟨slash, ends⟩ := default_path (path (hostname_netloc named)) pathEnds
    obtain ⟨metadata, localName⟩ := allowed_name (by simpa using allowed)
    refine ⟨Decidable.not_not.mp scheme, metadata, localName, ⟨_, parsed, split,
      empty_credential plain.1, empty_credential plain.2⟩, port_bound read, slash, ends, query,
      fun c member => ?_⟩
    rcases List.mem_append.mp member with inPath | inQuery
    · by_cases empty : parsed.path = []
      · rw [if_pos empty] at inPath
        cases List.mem_singleton.mp inPath
        decide
      · rw [if_neg empty] at inPath
        exact kept c (by simp [inPath])
    · exact kept c (by simp [inQuery])

theorem scheme_read (allowed : PlaceAllowed settings place) : SchemeRead place.scheme := by
  rcases settings.schemes place.scheme allowed.scheme with same | same
  · rw [same]
    exact ⟨by decide, by decide⟩
  · rw [same]
    exact ⟨by decide, by decide⟩

/-- The netloc of an address, and what is read from it. -/
theorem connect_reads (allowed : PlaceAllowed settings place) {ip : IpAddress}
    (plain : ip.scope = none) :
    ∃ u, urlSplit (place.at (connectNetlocForAddress ip.compressed place.explicitPort)) = some u ∧
      u.scheme = place.scheme ∧ u.Names ip.compressed place.explicitPort := by
  let netloc := connectNetlocForAddress ip.compressed place.explicitPort
  let u : Url := ⟨place.scheme, netloc, place.path, place.query, []⟩
  have chars := compressed_plain plain
  have shape : (netloc = ip.compressed ++ portText place.explicitPort ∧ ':' ∉ ip.compressed) ∨
      (netloc = '[' :: (ip.compressed ++ ']' :: portText place.explicitPort) ∧
        ∃ value scope, ipAddress ip.compressed = some (.v6 value scope)) := by
    cases ip with
    | v4 value =>
      refine .inl ⟨?_, fun member => ?_⟩
      · simp only [netloc, connectNetlocForAddress, hostForNetloc, ipAddress_compressed, withPort]
      · rcases parseV4_chars (parseV4_octets value) ':' member with same | digit
        · cases same
        · cases digit
    | v6 value scope =>
      refine .inr ⟨?_, value, scope, ipAddress_compressed _⟩
      simp [netloc, connectNetlocForAddress, hostForNetloc, ipAddress_compressed, withPort]
  have both : ∀ c ∈ ip.compressed ++ portText place.explicitPort, addressChar c = true :=
    fun c member => (List.mem_append.mp member).elim (chars c) portText_chars
  have solid : ∀ c ∈ netloc, addressChar c = true ∨ c = '[' ∨ c = ']' := fun c member => by
    rcases shape with ⟨whole, _⟩ | ⟨whole, _⟩
    · exact .inl (both c (whole ▸ member))
    · rw [whole] at member
      rcases List.mem_cons.mp member with same | rest
      · exact .inr (.inl same)
      · rcases List.mem_append.mp rest with front | back
        · exact .inl (chars c front)
        · exact (List.mem_cons.mp back).elim (fun same => .inr (.inr same))
            fun inPort => .inl (portText_chars inPort)
  have brackets : checkBrackets netloc = true := by
    rcases shape with ⟨whole, _⟩ | ⟨whole, value, scope, six⟩
    · rw [whole]
      exact checkBrackets_plain both
    · rw [whole]
      exact checkBrackets_bracketed six chars
  have names : u.Names ip.compressed place.explicitPort := by
    rcases shape with ⟨whole, colon⟩ | ⟨whole, _⟩
    · exact names_plain whole chars colon
    · exact names_bracketed whole chars
  refine ⟨u, urlSplit_unsplit ⟨scheme_read allowed, fun c member => ?_, brackets, ?_,
    allowed.path, allowed.pathEnds, allowed.query, rfl, fun c member => ?_⟩, rfl, names⟩
  · rcases solid c member with char | rfl | rfl
    · exact (addressChar_plain char).2.1
    · decide
    · decide
  · refine checkNetloc_ascii fun c member => ?_
    rcases solid c member with char | rfl | rfl
    · exact (addressChar_plain char).1
    · decide
    · decide
  · rw [List.append_assoc] at member
    rcases List.mem_append.mp member with inNetloc | rest
    · rcases solid c inNetloc with char | rfl | rfl
      · exact (addressChar_plain char).2.2.1
      · decide
      · decide
    · exact allowed.kept c rest

end Places

section Hops

/-- One URL of a fetch: where it leads, what the resolver answered, and what was sent. -/
structure Hop where
  place : Place
  answers : List (List Char)
  requests : List FetchRequest

def Hop.events (hop : Hop) : List FetchEvent :=
  .lookup hop.place hop.answers :: hop.requests.map .request

/-- An address that may be connected to. -/
structure AddressAllowed (blockPrivate : Bool) (ip : IpAddress) : Prop where
  loopback : ip.isLoopback = false
  linkLocal : ip.isLinkLocal = false
  multicast : ip.isMulticast = false
  unspecified : ip.isUnspecified = false
  reserved : ip.isReserved = false
  metadata : ip ≠ metadataAddress
  global : blockPrivate = true → ip.isGlobal = true

theorem compressed_shows (ip : IpAddress) : ip.compressed ≠ [] := by
  intro empty
  have read := ipAddress_compressed ip
  rw [empty] at read
  cases read

theorem ipAllowed_iff {blockPrivate : Bool} {ip : IpAddress} :
    ipAllowed blockPrivate ip = true ↔ AddressAllowed blockPrivate ip := by
  unfold ipAllowed
  simp only [Bool.and_eq_true, Bool.not_eq_true', Bool.or_eq_false_iff, bne_iff_ne, ne_eq,
    Bool.and_eq_false_iff, Bool.not_eq_false']
  constructor
  · rintro ⟨⟨metadata, ⟨⟨⟨loopback, linkLocal⟩, multicast⟩, unspecified⟩, reserved⟩, global⟩
    exact ⟨loopback, linkLocal, multicast, unspecified, reserved, metadata, fun block =>
      global.resolve_left (by simp [block])⟩
  · rintro ⟨loopback, linkLocal, multicast, unspecified, reserved, metadata, global⟩
    refine ⟨⟨metadata, ⟨⟨⟨loopback, linkLocal⟩, multicast⟩, unspecified⟩, reserved⟩, ?_⟩
    cases blockPrivate with
    | false => exact .inl rfl
    | true => exact .inr (global rfl)

theorem policy_read {blockPrivate : Bool} {address text : List Char}
    (accepted : validateIpPolicy blockPrivate address = .ok text) :
    ∃ ip, ipAddress address = some ip ∧ AddressAllowed blockPrivate ip ∧ text = ip.compressed := by
  unfold validateIpPolicy at accepted
  cases read : ipAddress address with
  | none =>
    rw [read] at accepted
    cases accepted
  | some ip =>
    rw [read] at accepted
    dsimp only at accepted
    split at accepted
    · rename_i allowed
      cases accepted
      exact ⟨ip, rfl, ipAllowed_iff.mp allowed, rfl⟩
    · cases accepted

variable [UrlTables] {settings : UrlFetchSettings}

/-- A request of a hop: every answer of the resolver was allowed, and the request goes to the text
of one of them. Where the answer has no scope, that address is what is read from the URL. -/
structure SafeRequest (settings : UrlFetchSettings) (place : Place) (answers : List (List Char))
    (request : FetchRequest) : Prop where
  answered : ∀ address ∈ answers, ∃ ip, ipAddress address = some ip ∧
    AddressAllowed settings.blockPrivateIps ip
  connected : ∃ address ∈ answers, ∃ ip, ipAddress address = some ip ∧
    request.url = place.at (connectNetlocForAddress ip.compressed place.explicitPort) ∧
    (ip.scope = none → ∃ u, urlSplit request.url = some u ∧ u.scheme = place.scheme ∧
      u.username = none ∧ u.password = none ∧ u.hostname = some ip.compressed ∧
      u.port = some place.explicitPort)
  host : request.host = withPort (hostForNetloc place.hostname) place.explicitPort
  sni : request.sniHostname = if place.scheme = "https".toList then some place.hostname else none

structure SafeHop (settings : UrlFetchSettings) (hop : Hop) : Prop where
  place : PlaceAllowed settings hop.place
  requests : ∀ request ∈ hop.requests, SafeRequest settings hop.place hop.answers request

/-- The requests that go to a validated URL are safe. -/
theorem validated_safe {place : Place} (allowed : PlaceAllowed settings place)
    {answers : List (List Char)} {target : ValidatedUrl}
    (valid : validated settings place answers = .ok target) {request : FetchRequest}
    (url : request.url ∈ target.connectUrls) (host : request.host = target.hostHeader)
    (sni : request.sniHostname = target.sniHostname) :
    SafeRequest settings place answers request := by
  unfold validated at valid
  obtain ⟨addresses, each, valid⟩ := Fallible.bind_ok valid
  split at valid
  · cases valid
  cases valid
  refine ⟨fun address member => ?_, ?_, host, sni⟩
  · obtain ⟨text, accepted⟩ := Fallible.mapM_each each address member
    obtain ⟨ip, read, ok, _⟩ := policy_read accepted
    exact ⟨ip, read, ok⟩
  · obtain ⟨text, member, same⟩ := List.mem_map.mp url
    obtain ⟨address, inAnswers, accepted⟩ := Fallible.mapM_from each text member
    obtain ⟨ip, read, _, rfl⟩ := policy_read accepted
    refine ⟨address, inAnswers, ip, read, same.symm, fun plain => ?_⟩
    obtain ⟨u, split, scheme, names⟩ := connect_reads allowed plain
    rw [← same]
    exact ⟨u, split, scheme, names.username, names.password,
      names.hostname_eq (compressed_shows ip) (compressed_plain plain), names.port_eq allowed.port⟩

end Hops

section Bodies
variable {settings : UrlFetchSettings} {contentSafety : ContentSafety}

theorem readChunks_fits {broken : Option TransportFailure} {chunks : List (List UInt8)}
    {total : Nat} {content whole : List UInt8} (same : content.length = total)
    (fits : total ≤ settings.maxBytes)
    (read : readChunks settings broken chunks total content = .ok whole) :
    whole.length ≤ settings.maxBytes ∧ whole = content ++ chunks.flatten := by
  induction chunks generalizing total content with
  | nil =>
    unfold readChunks at read
    cases broken with
    | some failure => cases read
    | none =>
      cases read
      exact ⟨same ▸ fits, (List.append_nil _).symm⟩
  | cons chunk chunks ih =>
    unfold readChunks at read
    split at read
    · cases read
    · rename_i more
      obtain ⟨bound, joined⟩ := ih (by rw [List.length_append, same]) (Nat.le_of_not_lt more) read
      exact ⟨bound, by rw [joined, List.flatten_cons, List.append_assoc]⟩

theorem readLimited_fits {response : FetchResponse} {content : List UInt8}
    (read : readLimited settings response = .ok content) :
    content ≠ [] ∧ content.length ≤ settings.maxBytes ∧ content = response.chunks.flatten := by
  unfold readLimited at read
  obtain ⟨whole, chunks, read⟩ := Fallible.bind_ok read
  split at read
  · cases read
  · rename_i shows
    cases read
    obtain ⟨bound, joined⟩ := readChunks_fits List.length_nil (Nat.zero_le _) chunks
    exact ⟨shows, bound, joined⟩

variable [UrlTables]

theorem contentType_allowed {value : Option (List Char)} {contentType : List Char}
    (accepted : validateContentType settings value = .ok contentType) :
    contentType ∈ settings.allowedContentTypes := by
  unfold validateContentType at accepted
  split at accepted
  · cases accepted
  · cases accepted
  · dsimp only at accepted
    split at accepted
    · rename_i allowed
      cases accepted
      exact allowed
    · cases accepted

/-- What the result of a fetch keeps to, when its last hop is at the place. -/
structure ResultOf (settings : UrlFetchSettings) (url : List Char) (place : Place)
    (result : UrlFetchResult) : Prop where
  requested : result.requestedUrl = url
  final : result.finalUrl = place.at (withPort (hostForNetloc place.hostname) place.explicitPort)
  source : result.safeSourceUrl = redactUrlForDisplay url
  shown : result.safeFinalUrl = redactUrlForDisplay result.finalUrl
  content : result.content ≠ []
  fits : result.content.length ≤ settings.maxBytes
  contentType : result.contentType ∈ settings.allowedContentTypes

theorem finish_result {url : List Char} {place : Place} {answers : List (List Char)}
    {target : ValidatedUrl} (valid : validated settings place answers = .ok target)
    {redirects : Nat} {response : FetchResponse} {result : UrlFetchResult}
    (finished : finish settings contentSafety url target redirects response = .ok result) :
    ResultOf settings url place result ∧ result.redirectCount = redirects := by
  have there : target.url =
      place.at (withPort (hostForNetloc place.hostname) place.explicitPort) := by
    unfold validated at valid
    obtain ⟨_, _, valid⟩ := Fallible.bind_ok valid
    split at valid
    · cases valid
    · cases valid
      rfl
  unfold finish at finished
  split at finished
  · cases finished
  obtain ⟨contentType, typed, finished⟩ := Fallible.bind_ok finished
  obtain ⟨content, read, finished⟩ := Fallible.bind_ok finished
  obtain ⟨_, _, finished⟩ := Fallible.bind_ok finished
  obtain ⟨fileName, _, finished⟩ := Fallible.bind_ok finished
  cases finished
  obtain ⟨shows, fits, _⟩ := readLimited_fits read
  exact ⟨⟨rfl, there, rfl, rfl, shows, fits, contentType_allowed typed⟩, rfl⟩

end Bodies

section Runs
variable {W : Type} {net : Network W} {settings : UrlFetchSettings} {contentSafety : ContentSafety}

variable (net) in
theorem safeStream_requests (target : ValidatedUrl) (urls : List (List Char))
    (last : TransportFailure) (world : W) :
    ∃ requests : List FetchRequest,
      (safeStream net target urls last world).events = requests.map .request ∧
      ∀ request ∈ requests, request.url ∈ urls ∧ request.host = target.hostHeader ∧
        request.sniHostname = target.sniHostname := by
  induction urls generalizing last world with
  | nil => exact ⟨[], rfl, fun request member => absurd member List.not_mem_nil⟩
  | cons url urls ih =>
    have one : ∀ request ∈ [(⟨url, target.hostHeader, target.sniHostname⟩ : FetchRequest)],
        request.url ∈ url :: urls ∧ request.host = target.hostHeader ∧
          request.sniHostname = target.sniHostname := fun request member => by
      cases List.mem_singleton.mp member
      exact ⟨List.mem_cons_self, rfl, rfl⟩
    unfold safeStream
    dsimp only
    split
    · exact ⟨_, rfl, one⟩
    · exact ⟨_, rfl, one⟩
    · rename_i failure world' _ _
      obtain ⟨requests, events, each⟩ := ih failure world'
      refine ⟨⟨url, target.hostHeader, target.sniHostname⟩ :: requests, ?_, fun request member => ?_⟩
      · rw [List.map_cons, ← events]
      · rcases List.mem_cons.mp member with rfl | later
        · exact one _ List.mem_cons_self
        · obtain ⟨there, rest⟩ := each request later
          exact ⟨List.mem_cons_of_mem _ there, rest⟩

/-- The second part is not reached, or the fetch ends as it does. -/
theorem Part.next_events {A B : Type} (part : Part W A) (f : A → W → Part W B) :
    (part.next f).events = part.events ∧ (∃ failure, (part.next f).result = .error failure) ∨
    ∃ a, part.result = .ok a ∧ (part.next f).events = part.events ++ (f a part.world).events ∧
      (part.next f).result = (f a part.world).result := by
  unfold Part.next
  cases part.result with
  | error failure => exact .inl ⟨rfl, failure, rfl⟩
  | ok a => exact .inr ⟨a, rfl, rfl, rfl⟩

variable [UrlTables]

variable (net settings) in
/-- A URL is refused before its host is looked up, or there is one lookup at its place. -/
theorem validateUrl_cases (url : List Char) (world : W) :
    ((validateUrl net settings url world).events = [] ∧
      ∃ failure, (validateUrl net settings url world).result = .error failure) ∨
    ∃ place answers, PlaceAllowed settings place ∧
      (validateUrl net settings url world).events = [.lookup place answers] ∧
      ∀ target, (validateUrl net settings url world).result = .ok target →
        validated settings place answers = .ok target := by
  unfold validateUrl
  cases located : locate settings url with
  | error failure => exact .inl ⟨rfl, failure, rfl⟩
  | ok place =>
    refine .inr ?_
    dsimp only
    split
    · rename_i failure world' _
      refine ⟨place, [], locate_allowed located, rfl, fun target done => ?_⟩
      cases done
    · rename_i answers world' _
      exact ⟨place, answers, locate_allowed located, rfl, fun target done => done⟩

/-- The place of the last hop, or where the fetch was before. -/
def lastPlace (before : Option Place) (hops : List Hop) : Option Place :=
  (hops.getLast?.map Hop.place).or before

/-- The hops of a part of a fetch, after as many as are done. -/
structure Hops (settings : UrlFetchSettings) (url : List Char) (before : Option Place)
    (done left : Nat) (hops : List Hop) (result : Except FetchFailure UrlFetchResult) : Prop where
  safe : ∀ hop ∈ hops, SafeHop settings hop
  few : hops.length ≤ left
  ended : ∀ fetched, result = .ok fetched → fetched.redirectCount + 1 = done + hops.length ∧
    ∃ place, lastPlace before hops = some place ∧ ResultOf settings url place fetched

/-- The hops of a part that was refused. -/
theorem refused_hops {url : List Char} {before : Option Place} {done left : Nat}
    (failure : FetchFailure) : Hops settings url before done left [] (.error failure) :=
  ⟨fun hop member => absurd member List.not_mem_nil, Nat.zero_le _, fun _ same => by cases same⟩

theorem stream_hops {url : List Char} {before : Option Place} {done left : Nat} {place : Place}
    {answers : List (List Char)} {target : ValidatedUrl} (allowed : PlaceAllowed settings place)
    (valid : validated settings place answers = .ok target) (world : W)
    {f : FetchResponse → W → Part W UrlFetchResult}
    (rest : ∀ response world, ∃ hops, (f response world).events = hops.flatMap Hop.events ∧
      Hops settings url before done left hops (f response world).result) :
    ∃ (requests : List FetchRequest) (hops : List Hop),
      ((safeStream net target target.connectUrls .httpError world).next f).events =
        requests.map FetchEvent.request ++ hops.flatMap Hop.events ∧
      (∀ request ∈ requests, SafeRequest settings place answers request) ∧
      Hops settings url before done left hops
        ((safeStream net target target.connectUrls .httpError world).next f).result := by
  obtain ⟨requests, sent, each⟩ := safeStream_requests net target target.connectUrls
    .httpError world
  have safe : ∀ request ∈ requests, SafeRequest settings place answers request :=
    fun request member => by
      obtain ⟨url, host, sni⟩ := each request member
      exact validated_safe allowed valid url host sni
  rcases Part.next_events (safeStream net target target.connectUrls .httpError world) f with
    ⟨events, failure, failed⟩ | ⟨response, _, events, ended⟩
  · refine ⟨requests, [], ?_, safe, ?_⟩
    · rw [events, sent, List.flatMap_nil, List.append_nil]
    · rw [failed]
      exact refused_hops failure
  · obtain ⟨hops, later, good⟩ := rest response
      (safeStream net target target.connectUrls .httpError world).world
    refine ⟨requests, hops, ?_, safe, ?_⟩
    · rw [events, sent, later]
    · rw [ended]
      exact good

theorem validate_hops {url next : List Char} {before : Option Place} {done left : Nat} (world : W)
    {f : ValidatedUrl → W → Part W UrlFetchResult}
    (rest : ∀ place answers target world, PlaceAllowed settings place →
      validated settings place answers = .ok target →
        ∃ (requests : List FetchRequest) (hops : List Hop),
          (f target world).events =
            requests.map FetchEvent.request ++ hops.flatMap Hop.events ∧
        (∀ request ∈ requests, SafeRequest settings place answers request) ∧
        Hops settings url (some place) (done + 1) left hops (f target world).result) :
    ∃ hops, ((validateUrl net settings next world).next f).events = hops.flatMap Hop.events ∧
      Hops settings url before done (left + 1) hops
        ((validateUrl net settings next world).next f).result := by
  rcases validateUrl_cases net settings next world with
    ⟨none, failure, refused⟩ | ⟨place, answers, allowed, looked, valid⟩
  · refine ⟨[], ?_, ?_⟩
    · unfold Part.next
      rw [refused]
      exact none
    · unfold Part.next
      rw [refused]
      exact refused_hops failure
  · rcases Part.next_events (validateUrl net settings next world) f with
      ⟨events, failure, failed⟩ | ⟨target, found, events, ended⟩
    · refine ⟨[⟨place, answers, []⟩], by rw [events, looked]; rfl, ?_⟩
      rw [failed]
      refine ⟨fun hop member => ?_, Nat.le_add_left 1 left, fun _ same => by cases same⟩
      cases List.mem_singleton.mp member
      exact ⟨allowed, fun request inside => absurd inside List.not_mem_nil⟩
    · obtain ⟨requests, hops, later, safe, good⟩ := rest place answers target
        (validateUrl net settings next world).world allowed (valid target found)
      refine ⟨⟨place, answers, requests⟩ :: hops, ?_, ?_⟩
      · rw [events, looked, later, List.flatMap_cons]
        exact (List.append_assoc _ _ _).symm
      · rw [ended]
        refine ⟨fun hop member => ?_, Nat.succ_le_succ good.few, fun fetched same => ?_⟩
        · rcases List.mem_cons.mp member with rfl | other
          · exact ⟨allowed, safe⟩
          · exact good.safe hop other
        · obtain ⟨count, last, there, kept⟩ := good.ended fetched same
          refine ⟨by rw [count, List.length_cons]; omega, last, ?_, kept⟩
          rw [← there]
          unfold lastPlace
          cases hops with
          | nil => rfl
          | cons hop hops =>
            rw [List.getLast?_cons_cons, List.getLast?_eq_some_getLast (List.cons_ne_nil hop hops)]
            rfl

/-- What a response ends with that is no redirect. -/
theorem finished_hops {url : List Char} {place : Place} {answers : List (List Char)}
    {target : ValidatedUrl} (valid : validated settings place answers = .ok target) (left : Nat)
    {redirects : Nat} (response : FetchResponse) :
    Hops settings url (some place) (redirects + 1) left []
      (finish settings contentSafety url target redirects response) := by
  refine ⟨fun hop member => absurd member List.not_mem_nil, Nat.zero_le _, fun fetched done => ?_⟩
  obtain ⟨kept, count⟩ := finish_result valid done
  exact ⟨by rw [count]; rfl, place, rfl, kept⟩

variable (net contentSafety) in
theorem fetchLoop_hops (url : List Char) (left : Nat) {place : Place}
    {answers : List (List Char)} {target : ValidatedUrl} (allowed : PlaceAllowed settings place)
    (valid : validated settings place answers = .ok target) (fits : left ≤ settings.maxRedirects)
    (world : W) :
    ∃ (requests : List FetchRequest) (hops : List Hop),
      (fetchLoop net settings contentSafety url left target world).events =
        requests.map FetchEvent.request ++ hops.flatMap Hop.events ∧
      (∀ request ∈ requests, SafeRequest settings place answers request) ∧
      Hops settings url (some place) (settings.maxRedirects - left + 1) left hops
        (fetchLoop net settings contentSafety url left target world).result := by
  induction left generalizing place answers target world with
  | zero =>
    refine stream_hops allowed valid world fun response world => ⟨[], ?_, ?_⟩
    · split <;> rfl
    · split
      · exact refused_hops _
      · exact finished_hops valid 0 response
  | succ left ih =>
    refine stream_hops allowed valid world fun response world => ?_
    split
    · split
      · exact ⟨[], rfl, refused_hops _⟩
      · rename_i redirect _
        refine validate_hops world fun place answers target world allowed valid => ?_
        have one_more : settings.maxRedirects - (left + 1) + 1 + 1 =
            settings.maxRedirects - left + 1 := by
          omega
        rw [one_more]
        exact ih allowed valid (Nat.le_of_succ_le fits) world
    · exact ⟨[], rfl, finished_hops valid (left + 1) response⟩

variable (net settings contentSafety) in
/-- Every run of a fetch is a few hops, and all that it sends is safe. -/
theorem fetch_hops (url : List Char) (world : W) :
    ∃ hops, (fetch net settings contentSafety url world).events = hops.flatMap Hop.events ∧
      Hops settings url none 0 (settings.maxRedirects + 1) hops
        (fetch net settings contentSafety url world).result :=
  validate_hops world fun place answers target world allowed valid => by
    have first := fetchLoop_hops net contentSafety url
      settings.maxRedirects allowed valid (Nat.le_refl _) world
    rwa [Nat.sub_self] at first

end Runs

section Cases
local instance fetchTables : UrlTables := asciiUrls

def twoRedirects : UrlFetchSettings :=
  ⟨2, 1024, ["http".toList, "https".toList], ["text/html".toList], true, by decide⟩

/-- A server that redirects to the metadata of its host. -/
def redirectingNetwork : Network Unit where
  resolver _ _ _ := (.ok ["93.184.216.34".toList], ())
  stream _ _ := (.ok ⟨302, some "http://169.254.169.254/latest".toList, none, [], none⟩, ())
  join _ location := .ok location

example :
    (fetch redirectingNetwork twoRedirects (fun _ _ => .ok ()) "http://a.example".toList ()).events =
    [.lookup ⟨"http".toList, "a.example".toList, none, ['/'], []⟩ ["93.184.216.34".toList],
      .request ⟨"http://93.184.216.34/".toList, "a.example".toList, none⟩] := by
  decide +kernel

end Cases
end RagProject.Documents
