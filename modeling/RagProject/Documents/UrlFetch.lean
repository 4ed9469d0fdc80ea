import RagProject.Lib.Regex
import RagProject.Lib.Url

/-! UrlFetchService (services/url_fetch_service.py): a page is fetched for a document, through
addresses that were checked before they are connected to. -/
namespace RagProject.Documents
open Python

local instance textLawful : LawfulBEq (List Char) := inferInstance

inductive FetchFailure where
  | validationFailed (field reason : String)
  | payloadTooLarge
  | unsafeFileRejected
  | unsupportedMediaType
  /-- Whatever else the resolver or the client raise, or a ValueError of urlsplit. -/
  | uncaught
  deriving DecidableEq, Repr

def urlInvalid (reason : String) : FetchFailure := .validationFailed "url" reason

structure UrlFetchSettings where
  maxRedirects : Nat
  maxBytes : Nat
  allowedSchemes : List (List Char)
  allowedContentTypes : List (List Char)
  blockPrivateIps : Bool
  schemes : ∀ scheme ∈ allowedSchemes, scheme = "http".toList ∨ scheme = "https".toList

section Names

/-- _SAFE_FILENAME_PATTERN.sub("_", text). -/
def replaceUnsafe : Bool → List Char → List Char
  | _, [] => []
  | inRun, c :: rest =>
    if c.isAlphanum || ['.', '_', ' ', '-'].contains c then c :: replaceUnsafe false rest
    else if inRun then replaceUnsafe true rest
    else '_' :: replaceUnsafe true rest

/-- text.strip(" ."). -/
def stripDots (text : List Char) : List Char :=
  ((text.dropWhile ([' ', '.'].contains ·)).reverse.dropWhile ([' ', '.'].contains ·)).reverse

/-- ".." among the parts of a Windows path without separators, also behind a drive. -/
def parentPart (filename : List Char) : Bool :=
  match filename with
  | drive :: ':' :: rest => drive.isAlpha && rest == ['.', '.']
  | _ => filename == ['.', '.']

def sanitizeFileName (filename : List Char) : Except FetchFailure (List Char) :=
  if filename.any fun c => c.toNat ≤ 0x1f || c.toNat == 0x7f then .error .unsafeFileRejected
  else if '/' ∈ filename ∨ '\\' ∈ filename then .error .unsafeFileRejected
  else if filename = ['.'] ∨ filename = ['.', '.'] ∨ parentPart filename then
    .error .unsafeFileRejected
  else
    let safeName := stripDots (replaceUnsafe false (strip filename))
    if safeName = [] then .error .unsafeFileRejected
    else if 255 < safeName.length then
      let (stem, dot, suffix) := rpartition '.' safeName
      if dot then
        -- A negative end counts from the end of the stem.
        let kept := if suffix.length ≤ 254 then 254 - suffix.length
          else stem.length - (suffix.length - 254)
        .ok (stem.take kept ++ '.' :: suffix)
      else .ok (safeName.take 255)
    else .ok safeName

end Names

section Policies

def metadataHostnames : List (List Char) :=
  ["metadata.google.internal".toList, "metadata".toList, "169.254.169.254".toList]

/-- The host without its dots at the end, lowered. -/
def policyName [UnicodeTables] (hostname : List Char) : List Char :=
  lower (hostname.rdropWhile (· == '.'))

/-- _validate_hostname_policy. -/
def hostnameAllowed [UnicodeTables] (hostname : List Char) : Bool :=
  let lowered := policyName hostname
  !(metadataHostnames.contains lowered) && lowered != "localhost".toList &&
    !(".localhost".toList.isSuffixOf lowered) && !(".local".toList.isSuffixOf lowered)

def metadataAddress : IpAddress := .v4 ⟨octets 169 254 169 254, by decide⟩

/-- The address may be connected to. -/
def ipAllowed (blockPrivate : Bool) (ip : IpAddress) : Bool :=
  ip != metadataAddress &&
    !(ip.isLoopback || ip.isLinkLocal || ip.isMulticast || ip.isUnspecified || ip.isReserved) &&
    !(blockPrivate && !ip.isGlobal)

/-- _validate_ip_policy. -/
def validateIpPolicy (blockPrivate : Bool) (address : List Char) : Except FetchFailure (List Char) :=
  match ipAddress address with
  | none => .error .unsafeFileRejected
  | some ip => if ipAllowed blockPrivate ip then .ok ip.compressed else .error .unsafeFileRejected

variable [UrlTables]

/-- A label of a host name as IDNA encodes it. -/
def toAsciiLabel (label : List Char) : Option (List Char) :=
  if label.all (·.toNat < 128) then if 0 < label.length ∧ label.length < 64 then some label else none
  else UrlTables.toAscii label

/-- The dots between labels. -/
def isLabelDot (c : Char) : Bool :=
  c == '.' || c == '\u3002' || c == '\uff0e' || c == '\uff61'

/-- hostname.encode("idna"). -/
def idnaEncode (hostname : List Char) : Option (List Char) :=
  if hostname.all (·.toNat < 128) then
    let labels := hostname.splitOn '.'
    if labels.dropLast.all (fun label => 0 < label.length && label.length < 64) &&
        (labels.getLastD []).length < 64 then some hostname
    else none
  else
    let labels := hostname.splitOnP isLabelDot
    let trailing := labels.getLastD [] = []
    ((if trailing then labels.dropLast else labels).mapM toAsciiLabel).map fun encoded =>
      ['.'].intercalate encoded ++ if trailing then ['.'] else []

/-- _normalized_hostname. -/
def normalizedHostname (hostname : List Char) : Except FetchFailure (List Char) :=
  match ipAddress (hostname.rdropWhile (· == '.')) with
  | some ip => .ok (lower ip.compressed)
  | none =>
    match idnaEncode hostname with
    | some encoded => .ok (lower encoded)
    | none => .error (urlInvalid "Invalid URL host.")

/-- _host_for_netloc. -/
def hostForNetloc (hostname : List Char) : List Char :=
  match ipAddress hostname with
  | none => hostname
  | some (.v6 value scope) => '[' :: (IpAddress.v6 value scope).compressed ++ [']']
  | some (.v4 value) => (IpAddress.v4 value).compressed

def withPort (netloc : List Char) (explicitPort : Option Nat) : List Char :=
  netloc ++ portText explicitPort

/-- _connect_netloc_for_address. -/
def connectNetlocForAddress (address : List Char) (explicitPort : Option Nat) : List Char :=
  withPort (hostForNetloc address) explicitPort

end Policies

section Validating
variable [UrlTables] (settings : UrlFetchSettings)

/-- Where a URL leads, before its host is resolved. -/
structure Place where
  scheme : List Char
  hostname : List Char
  explicitPort : Option Nat
  path : List Char
  query : List Char
  deriving DecidableEq, Repr

def Place.port (place : Place) : Nat :=
  match place.explicitPort with
  | none | some 0 => if place.scheme = "https".toList then 443 else 80
  | some port => port

/-- The URL of the place with another netloc. -/
def Place.at (place : Place) (netloc : List Char) : List Char :=
  urlUnsplit ⟨place.scheme, netloc, place.path, place.query, []⟩

structure ValidatedUrl where
  url : List Char
  connectUrls : List (List Char)
  hostHeader : List Char
  sniHostname : Option (List Char)
  deriving DecidableEq, Repr

/-- What _validate_url does until it asks the resolver. -/
def locate (url : List Char) : Except FetchFailure Place :=
  match urlSplit (strip url) with
  | none => .error (urlInvalid "Invalid URL.")
  | some parsed =>
    let scheme := lower parsed.scheme
    if scheme ∉ settings.allowedSchemes then .error (urlInvalid "URL scheme is not allowed.")
    else if parsed.username.any (· ≠ []) ∨ parsed.password.any (· ≠ []) then
      .error (urlInvalid "URL credentials are not allowed.")
    else
      match parsed.hostname with
      | none => .error (urlInvalid "URL host is required.")
      | some host =>
        match normalizedHostname host with
        | .error failure => .error failure
        | .ok hostname =>
          if !hostnameAllowed hostname then .error .unsafeFileRejected
          else
            match parsed.port with
            | none => .error (urlInvalid "Invalid URL port.")
            | some explicitPort =>
              .ok ⟨scheme, hostname, explicitPort,
                if parsed.path = [] then ['/'] else parsed.path, parsed.query⟩

/-- What it makes of the answers. -/
def validated (place : Place) (answers : List (List Char)) : Except FetchFailure ValidatedUrl := do
  let addresses ← answers.mapM (validateIpPolicy settings.blockPrivateIps)
  if addresses = [] then .error .unsafeFileRejected
  else
    let netloc := withPort (hostForNetloc place.hostname) place.explicitPort
    return {
      url := place.at netloc
      connectUrls := addresses.map fun address =>
        place.at (connectNetlocForAddress address place.explicitPort)
      hostHeader := netloc
      sniHostname := if place.scheme = "https".toList then some place.hostname else none }

end Validating

section Display

/-- The separators around a secret word, [._~!$&'()*+,;=:-]. -/
def secretEdge : Regex.Pattern :=
  .char fun c => ['.', '_', '~', '!', '$', '&', '\'', '(', ')', '*', '+', ',', ';', '=', ':',
    '-'].contains c

/-- Two words with a dash or an underscore between them, or nothing. -/
def joinedWords (first second : String) : Regex.Pattern :=
  Regex.sequence [Regex.literalIgnoreCase first,
    Regex.optional (.char fun c => c == '_' || c == '-'), Regex.literalIgnoreCase second]

def endOfText : Regex.Pattern := .notAhead (.char fun _ => true)

/-- _SECRET_PATH_SEGMENT_RE. The end of a text is also in front of its last line break. -/
def secretPathSegmentRe : Regex.Pattern :=
  Regex.sequence [.alt .textStart secretEdge,
    Regex.oneOf ([joinedWords "api" "key", joinedWords "access" "token", joinedWords "auth" "token",
      joinedWords "refresh" "token", joinedWords "id" "token"] ++
      ["secret", "password", "passwd", "credential", "bearer", "signature", "signed", "jwt",
        "session"].map Regex.literalIgnoreCase),
    Regex.oneOf [endOfText, .seq (Regex.exactly '\n') endOfText, secretEdge]]

variable [UrlTables]

def isSecretPathSegment (segment : List Char) : Bool :=
  if segment = [] then false else Regex.search secretPathSegmentRe (unquote segment)

def redactUrlPathForDisplay (path : List Char) : List Char :=
  let redacted := ['/'].intercalate ((path.splitOn '/').map fun segment =>
    if isSecretPathSegment segment then "redacted".toList else segment)
  if redacted = [] then ['/'] else redacted

def redactUrlForDisplay (url : List Char) : List Char :=
  match urlSplit url with
  | none => "redacted".toList
  | some parsed =>
    let host := lower (parsed.hostname.getD [])
    if host = [] then "redacted".toList
    else
      match parsed.port with
      | none => "redacted".toList
      | some port =>
        urlUnsplit ⟨lower parsed.scheme, withPort (hostForNetloc host) port,
          redactUrlPathForDisplay (if parsed.path = [] then ['/'] else parsed.path), [], []⟩

end Display

section Fetching

inductive TransportFailure where
  | timeout
  | invalidUrl
  | httpError
  | other
  deriving DecidableEq, Repr

structure FetchRequest where
  url : List Char
  host : List Char
  sniHostname : Option (List Char)
  deriving DecidableEq, Repr

/-- A response, with the chunks of its body and the failure that may end them. -/
structure FetchResponse where
  statusCode : Nat
  location : Option (List Char)
  contentType : Option (List Char)
  chunks : List (List UInt8)
  broken : Option TransportFailure
  deriving DecidableEq, Repr

/-- Everything outside: the resolver, the client, and how httpx joins a location to a URL. Their
answers may change with every call. -/
structure Network (W : Type) where
  resolver : W → List Char → Nat → Except FetchFailure (List (List Char)) × W
  stream : W → FetchRequest → Except TransportFailure FetchResponse × W
  join : List Char → List Char → Except TransportFailure (List Char)

inductive FetchEvent where
  | lookup (place : Place) (answers : List (List Char))
  | request (sent : FetchRequest)
  deriving DecidableEq, Repr

/-- A part of a fetch: how it ended, and what it did on the network. -/
structure Part (W A : Type) where
  result : Except FetchFailure A
  world : W
  events : List FetchEvent

def Part.next {W A B : Type} (part : Part W A) (f : A → W → Part W B) : Part W B :=
  match part.result with
  | .error failure => ⟨.error failure, part.world, part.events⟩
  | .ok a =>
    let rest := f a part.world
    ⟨rest.result, rest.world, part.events ++ rest.events⟩

/-- What the handlers of _safe_stream make of a failure. -/
def streamFailure : TransportFailure → FetchFailure
  | .timeout => urlInvalid "URL fetch timed out."
  | .invalidUrl => urlInvalid "Invalid URL."
  | .httpError => urlInvalid "URL fetch failed."
  | .other => .uncaught

variable {W : Type} [UrlTables] (net : Network W) (settings : UrlFetchSettings)

/-- _validate_url. -/
def validateUrl (url : List Char) (world : W) : Part W ValidatedUrl :=
  match locate settings url with
  | .error failure => ⟨.error failure, world, []⟩
  | .ok place =>
    match net.resolver world place.hostname place.port with
    | (.error failure, world) => ⟨.error failure, world, [.lookup place []]⟩
    | (.ok answers, world) => ⟨validated settings place answers, world, [.lookup place answers]⟩

/-- The first connect URL that opens, in _safe_stream. -/
def safeStream (target : ValidatedUrl) :
    List (List Char) → TransportFailure → W → Part W FetchResponse
  | [], last, world => ⟨.error (streamFailure last), world, []⟩
  | connectUrl :: rest, _, world =>
    let request := ⟨connectUrl, target.hostHeader, target.sniHostname⟩
    match net.stream world request with
    | (.ok response, world) => ⟨.ok response, world, [.request request]⟩
    | (.error .other, world) => ⟨.error .uncaught, world, [.request request]⟩
    | (.error failure, world) =>
      let after := safeStream target rest failure world
      ⟨after.result, after.world, .request request :: after.events⟩

def validateContentType (value : Option (List Char)) : Except FetchFailure (List Char) :=
  match value with
  | none | some [] => .error .unsupportedMediaType
  | some value =>
    let contentType := lower (strip (partition ';' value).1)
    if contentType ∈ settings.allowedContentTypes then .ok contentType
    else .error .unsupportedMediaType

/-- The chunks while they fit; a failure of the body counts when it is reached. -/
def readChunks (broken : Option TransportFailure) :
    List (List UInt8) → Nat → List UInt8 → Except FetchFailure (List UInt8)
  | [], _, content =>
    match broken with
    | some failure => .error (streamFailure failure)
    | none => .ok content
  | chunk :: rest, total, content =>
    if settings.maxBytes < total + chunk.length then .error .payloadTooLarge
    else readChunks broken rest (total + chunk.length) (content ++ chunk)

/-- _read_limited. -/
def readLimited (response : FetchResponse) : Except FetchFailure (List UInt8) := do
  let content ← readChunks settings response.broken response.chunks 0 []
  if content = [] then .error (urlInvalid "Fetched body is empty.") else return content

def isXmlContentType (contentType : List Char) : Bool :=
  ["text/xml".toList, "application/xml".toList, "application/rss+xml".toList,
    "application/atom+xml".toList].contains contentType

def fileNameForUrl (url contentType : List Char) : Except FetchFailure (List Char) :=
  match urlSplit url with
  | none => .error .uncaught
  | some parsed =>
    let host := parsed.hostname.getD "document".toList
    let extension := if isXmlContentType contentType then ".xml".toList else ".html".toList
    sanitizeFileName (host ++ "-url-document".toList ++ extension)

structure UrlFetchResult where
  requestedUrl : List Char
  finalUrl : List Char
  safeSourceUrl : List Char
  safeFinalUrl : List Char
  content : List UInt8
  contentType : List Char
  fileName : List Char
  redirectCount : Nat
  deriving DecidableEq, Repr

def isRedirect (statusCode : Nat) : Bool := [301, 302, 303, 307, 308].contains statusCode

/-- validate_web_content_safety, as far as it is asked here. -/
abbrev ContentSafety := List Char → List UInt8 → Except FetchFailure Unit

variable (contentSafety : ContentSafety)

/-- A response that is no redirect. -/
def finish (url : List Char) (target : ValidatedUrl) (redirects : Nat) (response : FetchResponse) :
    Except FetchFailure UrlFetchResult := do
  if response.statusCode < 200 ∨ 300 ≤ response.statusCode then
    .error (urlInvalid "URL fetch failed.")
  let contentType ← validateContentType settings response.contentType
  let content ← readLimited settings response
  contentSafety contentType content
  let fileName ← fileNameForUrl target.url contentType
  return {
    requestedUrl := url
    finalUrl := target.url
    safeSourceUrl := redactUrlForDisplay url
    safeFinalUrl := redactUrlForDisplay target.url
    content := content
    contentType := contentType
    fileName := fileName
    redirectCount := redirects }

/-- The URL that a redirect leads to. -/
def redirectUrl (target : ValidatedUrl) (response : FetchResponse) : Except FetchFailure (List Char) :=
  match response.location with
  | none | some [] => .error (urlInvalid "Redirect location is missing.")
  | some location =>
    match net.join target.url location with
    | .ok url => .ok url
    | .error .invalidUrl => .error (urlInvalid "Invalid redirect URL.")
    | .error failure => .error (streamFailure failure)

/-- The loop of fetch, with the redirects that are left. -/
def fetchLoop (url : List Char) : Nat → ValidatedUrl → W → Part W UrlFetchResult
  | 0, target, world =>
    (safeStream net target target.connectUrls .httpError world).next fun response world =>
      if isRedirect response.statusCode then
        ⟨.error (urlInvalid "Too many redirects."), world, []⟩
      else ⟨finish settings contentSafety url target settings.maxRedirects response, world, []⟩
  | left + 1, target, world =>
    (safeStream net target target.connectUrls .httpError world).next fun response world =>
      if isRedirect response.statusCode then
        match redirectUrl net target response with
        | .error failure => ⟨.error failure, world, []⟩
        | .ok redirect =>
          (validateUrl net settings redirect world).next fun target world =>
            fetchLoop url left target world
      else
        ⟨finish settings contentSafety url target (settings.maxRedirects - (left + 1)) response,
          world, []⟩

/-- UrlFetchService.fetch. -/
def fetch (url : List Char) (world : W) : Part W UrlFetchResult :=
  (validateUrl net settings url world).next fun target world =>
    fetchLoop net settings contentSafety url settings.maxRedirects target world

end Fetching
end RagProject.Documents
