import Mathlib
import SP42.Citation.Apply

/-!
IP addresses and the classifier of the guarded fetcher. What counts as a global range of
plain addresses comes from the network library.
-/
namespace SP42.Fetch

abbrev Ipv4 := BitVec 32

abbrev Ipv6 := BitVec 128

inductive IpAddr where
  | v4 (address : Ipv4)
  | v6 (address : Ipv6)
  deriving DecidableEq

/-- `is_global` of the network of one address. -/
structure Ranges where
  isGlobal4 : Ipv4 → Bool
  isGlobal6 : Ipv6 → Bool

section Forms

/-- The IPv4 address behind a prefix of 96 bits. -/
def behind (start : BitVec 96) (address : Ipv6) : Option Ipv4 :=
  if address.extractLsb' 32 96 = start then some (address.extractLsb' 0 32) else none

/-- `Ipv6Addr::to_ipv4_mapped`: the form `::ffff:a.b.c.d`. -/
def toIpv4Mapped (address : Ipv6) : Option Ipv4 := behind 0xffff#96 address

/-- The compatible form `::a.b.c.d`. -/
def compatible (address : Ipv6) : Option Ipv4 := behind 0#96 address

/-- The NAT64 form `64:ff9b::a.b.c.d`. -/
def nat64 (address : Ipv6) : Option Ipv4 := behind 0x64ff9b0000000000000000#96 address

/-- The 6to4 form `2002:aabb:ccdd::/48`. -/
def sixToFour (address : Ipv6) : Option Ipv4 :=
  if address.extractLsb' 112 16 = 0x2002#16 then some (address.extractLsb' 80 32) else none

/-- The forms other than the mapped one. -/
def otherForms (address : Ipv6) : List Ipv4 :=
  (compatible address).toList ++ (nat64 address).toList ++ (sixToFour address).toList

theorem otherForms_of_mapped {address : Ipv6} {inner : Ipv4}
    (mapped : toIpv4Mapped address = some inner) : otherForms address = [] := by
  have start : address.extractLsb' 32 96 = 0xffff#96 := by
    unfold toIpv4Mapped behind at mapped
    split at mapped
    · assumption
    · cases mapped
  have top : address.extractLsb' 112 16 = (address.extractLsb' 32 96).extractLsb' 80 16 := by
    ext i bound
    have inside : 80 + i < 96 := by omega
    have place : 112 + i = 32 + (80 + i) := by omega
    simp [BitVec.getElem_extractLsb', inside, place]
  have ne : address.extractLsb' 112 16 ≠ 0x2002#16 := by
    rw [top, start]
    decide
  unfold otherForms compatible nat64 sixToFour behind
  rw [start, if_neg (by decide), if_neg (by decide), if_neg ne]
  rfl

end Forms

section Classifier

variable (ranges : Ranges)

def isPublicIp : IpAddr → Bool
  | .v4 address => ranges.isGlobal4 address
  | .v6 address =>
      match toIpv4Mapped address with
      | some inner => ranges.isGlobal4 inner
      | none => ranges.isGlobal6 address

/-- Globally routable, with every IPv4 address that an IPv6 address embeds. A mapped
address is a spelling of the IPv4 address and has no range of its own. -/
def Routable : IpAddr → Prop
  | .v4 address => ranges.isGlobal4 address = true
  | .v6 address =>
      (∀ inner ∈ (toIpv4Mapped address).toList ++ otherForms address,
        ranges.isGlobal4 inner = true) ∧
      (toIpv4Mapped address = none → ranges.isGlobal6 address = true)

/-- An IPv6 address of a global range that embeds, not mapped, an IPv4 address of none. -/
def Slips : IpAddr → Prop
  | .v4 _ => False
  | .v6 address =>
      toIpv4Mapped address = none ∧ ranges.isGlobal6 address = true ∧
        ∃ inner ∈ otherForms address, ranges.isGlobal4 inner = false

variable {ranges}

/-- An address that passes is routable unless it is of the kind the classifier misses. -/
theorem routable_iff {ip : IpAddr} (passes : isPublicIp ranges ip = true) :
    Routable ranges ip ↔ ¬ Slips ranges ip := by
  cases ip with
  | v4 address => exact iff_of_true passes id
  | v6 address =>
      unfold isPublicIp at passes
      unfold Routable Slips
      dsimp only at passes ⊢
      cases mapped : toIpv4Mapped address with
      | some inner =>
          rw [mapped] at passes
          rw [otherForms_of_mapped mapped]
          simpa using passes
      | none =>
          rw [mapped] at passes
          simp [passes]

/-- Whether an address lies in a network of so many leading bits. -/
def inNetwork {width : Nat} (address base : BitVec width) (bits : Nat) : Bool :=
  address >>> (width - bits) == base >>> (width - bits)

/-- The ranges of unicast addresses as the network library documents them: private,
loopback, link-local, shared, unspecified, broadcast and documentation are not global. -/
def documentedRanges : Ranges where
  isGlobal4 address :=
    !([(0x0a000000#32, 8), (0xac100000#32, 12), (0xc0a80000#32, 16), (0x7f000000#32, 8),
      (0xa9fe0000#32, 16), (0x64400000#32, 10), (0#32, 32), (0xffffffff#32, 32),
      (0xc0000200#32, 24), (0xc6336400#32, 24), (0xcb007100#32, 24)].any fun network =>
        inNetwork address network.1 network.2)
  isGlobal6 address :=
    !([(0#128, 128), (1#128, 128), (0xfc00#128 <<< 112, 7), (0xfe80#128 <<< 112, 10),
      (0xfec0#128 <<< 112, 10), (0x20010db8#128 <<< 96, 32)].any fun network =>
        inNetwork address network.1 network.2)

end Classifier

end SP42.Fetch

/-!
The guarded source fetcher as a dialogue with the network: names are looked up, addresses
connected to, and the answers may be any. The transport runs the redirect policy on every
hop and the resolver for every name.
-/
namespace SP42.Fetch

inductive HttpClientError where
  | transport (message : Text)
  deriving DecidableEq

inductive Host where
  | domain (name : Text)
  | ipv4 (address : Ipv4)
  | ipv6 (address : Ipv6)

/-- What the fetcher uses of its libraries. -/
structure FetchSite (Url : Type) where
  ranges : Ranges
  host : Url → Option Host
  display : Url → Text
  toLowercase : Text → Text

/-- What the other end says to one hop. A header without a value does not read as text. -/
structure Reply (Url : Type) where
  status : Nat
  headers : List (Text × Option Text)
  redirect : Option Url
  contentLength : Option Nat
  chunks : List (Except Text (List UInt8))

inductive Question (Url : Type) where
  | send (method : Citation.HttpMethod) (url : Url) (headers : List (String × Text))
  | resolve (name : Text)
  | connect (method : Citation.HttpMethod) (url : Url) (addresses : List IpAddr)
  | draw (ceilingMs : Nat)
  | sleep (delayMs : Nat)

structure Answer (Url : Type) where
  addresses : Except Text (List IpAddr)
  reply : Except Text (Reply Url)
  drawn : Nat

abbrev Fetching (Url : Type) := Dialogue (Question Url) (Answer Url)

/-- A client as the two constructors build it. -/
structure GuardedHttpClient where
  guardedResolver : Bool
  guardLiterals : Bool
  maxSourceBytes : Nat

def maxSourceBytes : Nat := 8 * 1024 * 1024

def maxRedirects : Nat := 5

def maxRetries : Nat := 3

def retryBaseMs : Nat := 500

def maxRetryDelayMs : Nat := 30000

def ssrfMarker : Text := "SSRF".toList

def buildSourceClient (allowPrivate : Bool) : GuardedHttpClient where
  guardedResolver := !allowPrivate
  guardLiterals := !allowPrivate
  maxSourceBytes := maxSourceBytes

section Transport

variable {Url : Type} (site : FetchSite Url)

def hostIsBlockedLiteral (url : Url) : Bool :=
  match site.host url with
  | some (.ipv4 ip) => !isPublicIp site.ranges (.v4 ip)
  | some (.ipv6 ip) => !isPublicIp site.ranges (.v6 ip)
  | _ => false

def redirectPolicy (guardLiterals : Bool) (previous : List Url) (url : Url) : Except Text Unit :=
  if previous.length > maxRedirects then
    .error ("exceeded ".toList ++ Text.ofNat maxRedirects ++ " redirects".toList)
  else if guardLiterals && hostIsBlockedLiteral site url then
    .error (ssrfMarker ++ ": redirect target is a non-public IP literal".toList)
  else .ok ()

def guardedResolve (name : Text) : Fetching Url (Except Text (List IpAddr)) := do
  let answer ← Dialogue.put (.resolve name)
  match answer.addresses with
  | .error reason => pure (.error reason)
  | .ok resolved =>
      let publicOnes := resolved.filter (isPublicIp site.ranges)
      if publicOnes = [] then
        pure (.error "SSRF: host resolved only to non-public addresses".toList)
      else pure (.ok publicOnes)

variable (client : GuardedHttpClient)

/-- The addresses the transport may connect to for an address. -/
def candidates (url : Url) : Fetching Url (Except Text (List IpAddr)) :=
  match site.host url with
  | none => pure (.error "no host".toList)
  | some (.ipv4 ip) => pure (.ok [.v4 ip])
  | some (.ipv6 ip) => pure (.ok [.v6 ip])
  | some (.domain name) =>
      if client.guardedResolver then guardedResolve site name
      else do
        let answer ← Dialogue.put (.resolve name)
        pure answer.addresses

theorem hops_of_policy {site : FetchSite Url} {guardLiterals : Bool} {previous : List Url}
    {url : Url} (goesOn : redirectPolicy site guardLiterals previous url = .ok ()) :
    previous.length ≤ maxRedirects ∧ (guardLiterals && hostIsBlockedLiteral site url) = false := by
  unfold redirectPolicy at goesOn
  split at goesOn
  · cases goesOn
  · next within =>
      split at goesOn
      · cases goesOn
      · next free => exact ⟨Nat.le_of_not_lt within, by simpa using free⟩

/-- One hop and the redirects behind it. -/
def follow (previous : List Url) (url : Url) : Fetching Url (Except Text (Reply Url)) := do
  match ← candidates site client url with
  | .error reason => pure (.error reason)
  | .ok addresses =>
      let answer ← Dialogue.put (.connect .get url addresses)
      match answer.reply with
      | .error reason => pure (.error reason)
      | .ok reply =>
          match reply.redirect with
          | none => pure (.ok reply)
          | some next =>
              match goesOn : redirectPolicy site client.guardLiterals (previous ++ [url]) next with
              | .error reason => pure (.error reason)
              | .ok () => follow (previous ++ [url]) next
termination_by maxRedirects + 1 - previous.length
decreasing_by
  have within := (hops_of_policy goesOn).1
  rw [List.length_append, List.length_singleton] at within ⊢
  omega

end Transport

section Execute

variable {Url : Type} (site : FetchSite Url) (client : GuardedHttpClient)

def isRetryableStatus (status : Nat) : Bool :=
  [408, 429, 500, 502, 503, 504].contains status

/-- `str::parse::<u64>`. -/
def parseU64 (text : Text) : Option Nat :=
  let digits := match text with
    | '+' :: rest => rest
    | _ => text
  (Text.parseDigits digits).bind fun n => if n ≤ u64Max then some n else none

def retryAfterDelay (reply : Reply Url) : Option Nat := do
  let value ← (reply.headers.lookup "retry-after".toList).bind id
  let seconds ← parseU64 (Text.trim value)
  some (min (seconds * 1000) maxRetryDelayMs)

def backoffCeiling (attempt : Nat) : Nat :=
  max (min (retryBaseMs * 2 ^ min attempt 16) maxRetryDelayMs) 1

def retryDelay (attempt : Nat) (reply : Reply Url) : Fetching Url Nat :=
  match retryAfterDelay reply with
  | some delay => pure delay
  | none => do
      let answer ← Dialogue.put (.draw (backoffCeiling attempt))
      pure answer.drawn

/-- Sends the request until the answer is none to retry, from the given attempt on. -/
def attempts (request : Citation.HttpRequest Url) (attempt : Nat) :
    Fetching Url (Except HttpClientError (Reply Url)) := do
  let _ ← Dialogue.put (.send .get request.url request.headers)
  match ← follow site client [] request.url with
  | .error reason => pure (.error (.transport reason))
  | .ok reply =>
      if attempt < maxRetries ∧ isRetryableStatus reply.status then do
        let delay ← retryDelay attempt reply
        let _ ← Dialogue.put (.sleep delay)
        attempts request (attempt + 1)
      else pure (.ok reply)
termination_by maxRetries - attempt

/-- The body, chunk after chunk. -/
def readBody (cap : Nat) (body : List UInt8) :
    List (Except Text (List UInt8)) → Except HttpClientError (List UInt8)
  | [] => .ok body
  | .error reason :: _ => .error (.transport reason)
  | .ok chunk :: rest =>
      if body.length + chunk.length > cap then
        .error (.transport
          ("response exceeds ".toList ++ Text.ofNat cap ++ "-byte cap (streamed)".toList))
      else readBody cap (body ++ chunk) rest

def methodName : Citation.HttpMethod → Text
  | .get => "Get".toList
  | .post => "Post".toList
  | .put => "Put".toList
  | .patch => "Patch".toList
  | .delete => "Delete".toList

def execute (request : Citation.HttpRequest Url) :
    Fetching Url (Except HttpClientError Citation.HttpResponse) :=
  if request.method ≠ .get then
    pure (.error (.transport
      ("read-only fetch only allows GET, got ".toList ++ methodName request.method)))
  else if client.guardLiterals && hostIsBlockedLiteral site request.url then
    pure (.error (.transport
      (ssrfMarker ++ ": refusing non-public IP literal ".toList ++ site.display request.url)))
  else do
    match ← attempts site client request 0 with
    | .error reason => pure (.error reason)
    | .ok reply =>
        if reply.contentLength.any fun length => length > client.maxSourceBytes then
          pure (.error (.transport
            ("response exceeds ".toList ++ Text.ofNat client.maxSourceBytes ++
              "-byte cap (Content-Length)".toList)))
        else
          let headers := reply.headers.filterMap fun header =>
            header.2.map fun value => (String.ofList (site.toLowercase header.1), value)
          match readBody client.maxSourceBytes [] reply.chunks with
          | .error reason => pure (.error reason)
          | .ok body => pure (.ok { status := reply.status, headers := headers, body := body })

end Execute

end SP42.Fetch
