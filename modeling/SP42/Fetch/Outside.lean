import SP42.Fetch.Client

/-!
What the source client does on the network, whatever names resolve to, wherever servers
redirect and however often they fail.
-/
namespace SP42.Fetch

open Dialogue (Adds adds_bind adds_put_bind)

abbrev Exchange (Url : Type) := Question Url × Answer Url

section Exchanges

variable {Url : Type} (site : FetchSite Url)

def Question.isSend : Question Url → Bool
  | .send _ _ _ => true
  | _ => false

def Question.isConnect : Question Url → Bool
  | .connect _ _ _ => true
  | _ => false

def Question.addresses : Question Url → List IpAddr
  | .connect _ _ addresses => addresses
  | _ => []

def Question.method : Question Url → Option Citation.HttpMethod
  | .send method _ _ => some method
  | .connect method _ _ => some method
  | _ => none

/-- The address of a host that is one. -/
def literal (url : Url) : List IpAddr :=
  match site.host url with
  | some (.ipv4 ip) => [.v4 ip]
  | some (.ipv6 ip) => [.v6 ip]
  | _ => []

/-- The addresses an answer names: of a lookup, or as the host a server redirects to. -/
def named (exchange : Exchange Url) : List IpAddr :=
  match exchange.1 with
  | .resolve _ => exchange.2.addresses.toOption.getD []
  | .connect _ _ _ =>
      ((exchange.2.reply.toOption.bind Reply.redirect).map (literal site)).getD []
  | _ => []

/-- Every address connected to is one that passes and that is known or was named. -/
def Screened (known : List IpAddr) (steps : List (Exchange Url)) : Prop :=
  ∀ exchange ∈ steps, ∀ ip ∈ exchange.1.addresses,
    isPublicIp site.ranges ip = true ∧ ip ∈ known ++ steps.flatMap (named site)

def OnlyGet (steps : List (Exchange Url)) : Prop :=
  ∀ exchange ∈ steps, ∀ method ∈ exchange.1.method, method = .get

/-- A stretch of one attempt: no new one starts, and so many hops are connected to. -/
structure Stretch (known : List IpAddr) (hops : Nat) (steps : List (Exchange Url)) : Prop where
  screened : Screened site known steps
  onlyGet : OnlyGet steps
  unsent : ∀ exchange ∈ steps, exchange.1.isSend = false
  few : steps.countP (fun exchange => exchange.1.isConnect) ≤ hops

variable {site} {known later : List IpAddr} {hops more : Nat} {steps rest : List (Exchange Url)}

theorem Screened.append (first : Screened site known steps) (second : Screened site later rest)
    (from_first : ∀ ip ∈ later, ip ∈ known ++ steps.flatMap (named site)) :
    Screened site known (steps ++ rest) := by
  intro exchange member ip held
  rw [List.flatMap_append, ← List.append_assoc]
  rcases List.mem_append.mp member with here | there
  · obtain ⟨passes, source⟩ := first exchange here ip held
    exact ⟨passes, List.mem_append_left _ source⟩
  · obtain ⟨passes, source⟩ := second exchange there ip held
    refine ⟨passes, ?_⟩
    rcases List.mem_append.mp source with old | new
    · exact List.mem_append_left _ (from_first ip old)
    · exact List.mem_append_right _ new

theorem OnlyGet.append (first : OnlyGet steps) (second : OnlyGet rest) :
    OnlyGet (steps ++ rest) := by
  intro exchange member
  rcases List.mem_append.mp member with here | there
  · exact first exchange here
  · exact second exchange there

theorem Stretch.append (first : Stretch site known hops steps)
    (second : Stretch site later more rest)
    (from_first : ∀ ip ∈ later, ip ∈ known ++ steps.flatMap (named site)) :
    Stretch site known (hops + more) (steps ++ rest) where
  screened := first.screened.append second.screened from_first
  onlyGet := first.onlyGet.append second.onlyGet
  unsent := by
    intro exchange member
    rcases List.mem_append.mp member with here | there
    · exact first.unsent exchange here
    · exact second.unsent exchange there
  few := by
    rw [List.countP_append]
    exact Nat.add_le_add first.few second.few

theorem Stretch.mono (first : Stretch site known hops steps) (bound : hops ≤ more) :
    Stretch site known more steps :=
  { first with few := first.few.trans bound }

theorem stretch_nil : Stretch site known 0 [] where
  screened := fun _ member => nomatch member
  onlyGet := fun _ member => nomatch member
  unsent := fun _ member => nomatch member
  few := Nat.le_refl 0

/-- An exchange that neither sends nor connects. -/
theorem stretch_quiet {exchange : Exchange Url} (methodless : exchange.1.method = none)
    (unconnected : exchange.1.addresses = []) (unsent : exchange.1.isSend = false)
    (still : exchange.1.isConnect = false) : Stretch site known 0 [exchange] where
  screened := by
    intro other member ip held
    rw [List.mem_singleton.mp member, unconnected] at held
    cases held
  onlyGet := by
    intro other member method held
    rw [List.mem_singleton.mp member, methodless] at held
    cases held
  unsent := by
    intro other member
    rw [List.mem_singleton.mp member, unsent]
  few := by simp [still]

theorem stretch_connect {url : Url} {addresses : List IpAddr} {answer : Answer Url}
    (passing : ∀ ip ∈ addresses, isPublicIp site.ranges ip = true ∧ ip ∈ known) :
    Stretch site known 1 [(.connect .get url addresses, answer)] where
  screened := by
    intro other member ip held
    rw [List.mem_singleton.mp member] at held
    obtain ⟨passes, source⟩ := passing ip held
    exact ⟨passes, List.mem_append_left _ source⟩
  onlyGet := by
    intro other member method held
    rw [List.mem_singleton.mp member] at held
    exact (Option.some.inj held).symm
  unsent := by
    intro other member
    rw [List.mem_singleton.mp member]
    rfl
  few := by simp [Question.isConnect]

end Exchanges

section Transport

variable {Url : Type} {site : FetchSite Url}

/-- The client for untrusted sources, guarded. -/
abbrev sourceClient : GuardedHttpClient := buildSourceClient false

theorem isPublicIp_of_literal {url : Url} (free : hostIsBlockedLiteral site url = false)
    {ip : IpAddr} (held : ip ∈ literal site url) : isPublicIp site.ranges ip = true := by
  unfold hostIsBlockedLiteral at free
  unfold literal at held
  split at held
  · next found =>
      rw [found] at free
      rw [List.mem_singleton.mp held]
      simpa using free
  · next found =>
      rw [found] at free
      rw [List.mem_singleton.mp held]
      simpa using free
  · cases held

/-- What may be connected to passes, and is the literal host or came from the lookup. -/
theorem adds_candidates {url : Url} (free : hostIsBlockedLiteral site url = false) :
    Adds (fun steps found => Stretch site (literal site url) 0 steps ∧
        ∀ addresses, found = .ok addresses → ∀ ip ∈ addresses,
          isPublicIp site.ranges ip = true ∧
            ip ∈ literal site url ++ steps.flatMap (named site))
      (candidates site sourceClient url) := by
  unfold candidates
  cases host : site.host url with
  | none => exact ⟨stretch_nil, nofun⟩
  | some host' =>
      cases host' with
      | ipv4 ip =>
          refine ⟨stretch_nil, fun addresses same other held => ?_⟩
          cases same
          have own : literal site url = [.v4 ip] := by rw [literal, host]
          rw [← own] at held
          exact ⟨isPublicIp_of_literal free held, List.mem_append_left _ held⟩
      | ipv6 ip =>
          refine ⟨stretch_nil, fun addresses same other held => ?_⟩
          cases same
          have own : literal site url = [.v6 ip] := by rw [literal, host]
          rw [← own] at held
          exact ⟨isPublicIp_of_literal free held, List.mem_append_left _ held⟩
      | domain name =>
          show Adds _ (guardedResolve site name)
          unfold guardedResolve
          rw [adds_put_bind]
          intro answer
          have quiet : Stretch site (literal site url) 0 [(.resolve name, answer)] :=
            stretch_quiet rfl rfl rfl rfl
          cases looked : answer.addresses with
          | error reason => exact ⟨quiet, nofun⟩
          | ok resolved =>
              dsimp only
              split
              · exact ⟨quiet, nofun⟩
              · refine ⟨quiet, fun addresses same ip held => ?_⟩
                cases same
                obtain ⟨member, passes⟩ := List.mem_filter.mp held
                refine ⟨passes, List.mem_append_right _ ?_⟩
                simpa [named, looked, Except.toOption] using member

/-- One hop: what it connects to passes, and what is behind a redirect is counted apart. -/
theorem adds_hop {left : Nat} {previous : List Url} {url : Url}
    (free : hostIsBlockedLiteral site url = false)
    (behind : ∀ next, redirectPolicy site true (previous ++ [url]) next = .ok () →
      Adds (fun steps _ => Stretch site (literal site next) left steps)
        (follow site sourceClient (previous ++ [url]) next)) :
    Adds (fun steps _ => Stretch site (literal site url) (left + 1) steps)
      (follow site sourceClient previous url) := by
  rw [follow, adds_bind]
  refine (adds_candidates free).mono fun looked found ⟨quiet, passing⟩ => ?_
  cases found with
  | error reason =>
      have ends := quiet.mono (Nat.zero_le (left + 1))
      rw [← List.append_nil looked] at ends
      exact ends
  | ok addresses =>
      dsimp only
      rw [adds_put_bind]
      intro answer
      have hop : Stretch site (literal site url) 1
          (looked ++ [(.connect .get url addresses, answer)]) := by
        have connected := @stretch_connect Url site
          (literal site url ++ looked.flatMap (named site)) url addresses answer
          (passing addresses rfl)
        simpa using quiet.append connected fun ip held => held
      have alone := hop.mono (Nat.le_add_left 1 left)
      cases said : answer.reply with
      | error reason => exact alone
      | ok reply =>
          dsimp only
          cases moved : reply.redirect with
          | none => exact alone
          | some next =>
              dsimp only
              split
              · exact alone
              · next goesOn =>
                  refine (behind next goesOn).mono fun steps _ after => ?_
                  have whole := hop.append after ?_
                  · rw [Nat.add_comm, List.append_assoc] at whole
                    exact whole
                  · intro ip held
                    refine List.mem_append_right _ (List.mem_flatMap.mpr
                      ⟨(.connect .get url addresses, answer), by simp, ?_⟩)
                    simpa [named, said, moved, Except.toOption] using held

/-- From a host that is no blocked literal on, an attempt connects only to addresses that
pass, and to no more hops than are left. -/
theorem adds_follow (left : Nat) {previous : List Url} {url : Url}
    (free : hostIsBlockedLiteral site url = false)
    (within : previous.length + left = maxRedirects) :
    Adds (fun steps _ => Stretch site (literal site url) (left + 1) steps)
      (follow site sourceClient previous url) := by
  induction left generalizing previous url with
  | zero =>
      refine adds_hop free fun next goesOn => ?_
      have short := (hops_of_policy goesOn).1
      rw [List.length_append, List.length_singleton] at short
      omega
  | succ left ih =>
      refine adds_hop free fun next goesOn => ?_
      have unblocked : hostIsBlockedLiteral site next = false := (hops_of_policy goesOn).2
      refine ih unblocked ?_
      rw [List.length_append, List.length_singleton]
      omega

end Transport

section Attempts

variable {Url : Type}

/-- One attempt: the request is sent once, and at most five redirects are followed. -/
def IsAttempt (steps : List (Exchange Url)) : Prop :=
  ∃ first rest, steps = first :: rest ∧ first.1.isSend = true ∧
    (∀ exchange ∈ rest, exchange.1.isSend = false) ∧
    rest.countP (fun exchange => exchange.1.isConnect) ≤ maxRedirects + 1

variable (site : FetchSite Url) (known : List IpAddr)

/-- A run of so many attempts that screens what it connects to. -/
structure Attempted (count : Nat) (steps : List (Exchange Url)) : Prop where
  screened : Screened site known steps
  onlyGet : OnlyGet steps
  attempts : ∃ parts : List (List (Exchange Url)), steps = parts.flatten ∧
    parts.length ≤ count ∧ ∀ part ∈ parts, IsAttempt part

variable {site known} {steps rest : List (Exchange Url)} {count : Nat}

theorem attempted_one {headers : List (String × Text)} {url : Url} {answer : Answer Url}
    (stretch : Stretch site known (maxRedirects + 1) steps) :
    Attempted site known 1 ((.send .get url headers, answer) :: steps) where
  screened := by
    have quiet : Screened site known [((.send .get url headers, answer) : Exchange Url)] := by
      intro exchange member ip held
      rw [List.mem_singleton.mp member] at held
      cases held
    exact quiet.append stretch.screened fun ip held => List.mem_append_left _ held
  onlyGet := by
    intro exchange member method held
    rcases List.mem_cons.mp member with rfl | later
    · exact (Option.some.inj held).symm
    · exact stretch.onlyGet exchange later method held
  attempts := by
    refine ⟨[(.send .get url headers, answer) :: steps], by simp, Nat.le_refl 1, ?_⟩
    intro part member
    rw [List.mem_singleton.mp member]
    exact ⟨_, steps, rfl, rfl, stretch.unsent, stretch.few⟩

theorem Attempted.append (first : Attempted site known 1 steps)
    (others : Attempted site known count rest) :
    Attempted site known (count + 1) (steps ++ rest) where
  screened := first.screened.append others.screened fun ip held => List.mem_append_left _ held
  onlyGet := first.onlyGet.append others.onlyGet
  attempts := by
    obtain ⟨parts, rfl, few, each⟩ := first.attempts
    obtain ⟨more, rfl, fewMore, eachMore⟩ := others.attempts
    refine ⟨parts ++ more, List.flatten_append.symm, ?_, ?_⟩
    · rw [List.length_append]
      omega
    · intro part member
      exact (List.mem_append.mp member).elim (each part) (eachMore part)

theorem Attempted.mono {more : Nat} (some : Attempted site known count steps)
    (bound : count ≤ more) : Attempted site known more steps :=
  { some with
    attempts := by
      obtain ⟨parts, whole, few, each⟩ := some.attempts
      exact ⟨parts, whole, few.trans bound, each⟩ }

theorem adds_retryDelay (attempt : Nat) (reply : Reply Url) :
    Adds (fun steps _ => Stretch site known 0 steps) (retryDelay attempt reply) := by
  unfold retryDelay
  cases retryAfterDelay reply with
  | some delay => exact stretch_nil
  | none => exact fun answer => stretch_quiet rfl rfl rfl rfl

/-- One attempt, with what a retry adds behind it. -/
theorem adds_attempt {request : Citation.HttpRequest Url} {attempt left : Nat}
    (free : hostIsBlockedLiteral site request.url = false)
    (behind : attempt < maxRetries →
      Adds (fun steps _ => Attempted site (literal site request.url) left steps)
        (attempts site sourceClient request (attempt + 1))) :
    Adds (fun steps _ => Attempted site (literal site request.url) (left + 1) steps)
      (attempts site sourceClient request attempt) := by
  rw [attempts, adds_put_bind]
  intro sent
  rw [adds_bind]
  refine (adds_follow maxRedirects free (Nat.zero_add _)).mono fun steps found stretch => ?_
  have alone : Attempted site (literal site request.url) (left + 1)
      ((.send .get request.url request.headers, sent) :: (steps ++ [])) := by
    rw [List.append_nil]
    exact (attempted_one stretch).mono (Nat.le_add_left 1 left)
  cases found with
  | error reason => exact alone
  | ok reply =>
      dsimp only
      split
      · next again =>
          rw [adds_bind]
          refine (@adds_retryDelay Url site (literal site request.url) attempt reply).mono fun drawn delay pause => ?_
          rw [adds_put_bind]
          intro slept
          refine (behind again.1).mono fun rest _ others => ?_
          have asleep : Stretch site (literal site request.url) 0
              [((.sleep delay, slept) : Exchange Url)] := stretch_quiet rfl rfl rfl rfl
          have first := (stretch.append pause fun ip => List.mem_append_left _).append asleep
            fun ip => List.mem_append_left _
          have one : Attempted site (literal site request.url) 1
              ((.send .get request.url request.headers, sent) ::
                (steps ++ drawn ++ [(.sleep delay, slept)])) := attempted_one first
          simpa using one.append others
      · exact alone

/-- The retries left bound the attempts, each of which is screened. -/
theorem adds_attempts {request : Citation.HttpRequest Url}
    (free : hostIsBlockedLiteral site request.url = false) (left : Nat) {attempt : Nat}
    (within : attempt + left = maxRetries) :
    Adds (fun steps _ => Attempted site (literal site request.url) (left + 1) steps)
      (attempts site sourceClient request attempt) := by
  induction left generalizing attempt with
  | zero => exact adds_attempt free fun again => by omega
  | succ left ih => exact adds_attempt free fun _ => ih (by omega)

theorem readBody_le {cap : Nat} {body whole : List UInt8}
    {chunks : List (Except Text (List UInt8))} (small : body.length ≤ cap)
    (read : readBody cap body chunks = .ok whole) : whole.length ≤ cap := by
  induction chunks generalizing body with
  | nil =>
      cases read
      exact small
  | cons chunk rest ih =>
      cases chunk with
      | error reason => cases read
      | ok chunk =>
          unfold readBody at read
          split at read
          · cases read
          · next fits =>
              refine ih ?_ read
              rw [List.length_append]
              omega

/-- What the source client puts on the network, and how large a body it returns. -/
structure Fetched (site : FetchSite Url) (known : List IpAddr) (steps : List (Exchange Url))
    (result : Except HttpClientError Citation.HttpResponse) : Prop where
  attempted : Attempted site known (maxRetries + 1) steps
  capped : ∀ response, result = .ok response → response.body.length ≤ maxSourceBytes

theorem attempted_nil : Attempted site known count [] where
  screened := fun _ member => nomatch member
  onlyGet := fun _ member => nomatch member
  attempts := ⟨[], rfl, Nat.zero_le _, fun _ member => nomatch member⟩

theorem adds_execute (request : Citation.HttpRequest Url) :
    Adds (Fetched site (literal site request.url)) (execute site sourceClient request) := by
  unfold execute
  split
  · exact ⟨attempted_nil, nofun⟩
  · split
    · exact ⟨attempted_nil, nofun⟩
    · next free =>
        have unblocked : hostIsBlockedLiteral site request.url = false := by
          simpa [sourceClient, buildSourceClient] using free
        rw [adds_bind]
        refine (adds_attempts unblocked maxRetries (Nat.zero_add _)).mono
          fun steps found attempted => ?_
        rw [← List.append_nil steps] at attempted
        cases found with
        | error reason => exact ⟨attempted, nofun⟩
        | ok reply =>
            dsimp only
            split
            · exact ⟨attempted, nofun⟩
            · split
              · exact ⟨attempted, nofun⟩
              · next body read =>
                  refine ⟨attempted, fun response same => ?_⟩
                  cases same
                  exact readBody_le (Nat.zero_le _) read

end Attempts

section Runs

variable {Url : Type} (site : FetchSite Url)
  (partner : List (Exchange Url) → Question Url → Answer Url)
  (request : Citation.HttpRequest Url)

/-- The exchanges of a fetch, and its result, against a network that knows what was said. -/
def fetch : List (Exchange Url) × Except HttpClientError Citation.HttpResponse :=
  Dialogue.run partner [] (execute site (buildSourceClient false) request)

/-- The addresses the environment brings into a fetch. -/
def met : List IpAddr :=
  literal site request.url ++ (fetch site partner request).1.flatMap (named site)

theorem fetched : Fetched site (literal site request.url) (fetch site partner request).1
    (fetch site partner request).2 := by
  obtain ⟨steps, whole, made⟩ := @Dialogue.run_of_adds _ _ _ partner _ _ (adds_execute request) []
  rw [List.nil_append] at whole
  rw [← whole] at made
  exact made

/-- Where no address that turns up embeds an inside address in a form that the classifier
misses, a fetch connects to routable addresses only; it keeps its caps in any case. -/
theorem fetch_stays_outside
    (plain : ∀ ip ∈ met site partner request, ¬ Slips site.ranges ip) :
    (∀ exchange ∈ (fetch site partner request).1, ∀ ip ∈ exchange.1.addresses,
      Routable site.ranges ip) ∧
    OnlyGet (fetch site partner request).1 ∧
    (∃ parts : List (List (Exchange Url)),
      (fetch site partner request).1 = parts.flatten ∧ parts.length ≤ 4 ∧
        ∀ part ∈ parts, IsAttempt part) ∧
    ∀ response, (fetch site partner request).2 = .ok response →
      response.body.length ≤ 8 * 1024 * 1024 := by
  obtain ⟨⟨screened, onlyGet, attempts⟩, capped⟩ := fetched site partner request
  refine ⟨fun exchange member ip held => ?_, onlyGet, attempts, capped⟩
  obtain ⟨passes, source⟩ := screened exchange member ip held
  exact (routable_iff passes).mpr (plain ip source)

end Runs

section Examples

/-- A site whose addresses are their hosts. -/
def hostSite : FetchSite Host where
  ranges := documentedRanges
  host := some
  display _ := []
  toLowercase := id

def getRequest (url : Host) : Citation.HttpRequest Host where
  method := .get
  url := url
  headers := []
  body := []

/-- A network that resolves every name to the addresses and answers every hop with an
empty page. -/
def steadyNetwork (addresses : List IpAddr) : List (Exchange Host) → Question Host → Answer Host :=
  fun _ _ =>
    { addresses := .ok addresses
      reply := .ok
        { status := 200, headers := [], redirect := none, contentLength := none, chunks := [] }
      drawn := 0 }

/-- `1.1.1.1`. -/
def publicAddress : IpAddr := .v4 0x01010101#32

theorem named_steadyNetwork (addresses : List IpAddr) (url : Host) (ip : IpAddr)
    (held : ip ∈ (fetch hostSite (steadyNetwork addresses) (getRequest url)).1.flatMap
      (named hostSite)) : ip ∈ addresses := by
  obtain ⟨⟨question, answer⟩, member, brought⟩ := List.mem_flatMap.mp held
  rcases Dialogue.answered _ member with no | ⟨_, same⟩
  · cases no
  · obtain rfl : answer = steadyNetwork addresses [] question := same
    cases question with
    | resolve name => exact brought
    | _ => cases brought

theorem fetch_of_public :
    (∀ exchange ∈ (fetch hostSite (steadyNetwork [publicAddress])
        (getRequest (.domain ['a']))).1, ∀ ip ∈ exchange.1.addresses,
      Routable hostSite.ranges ip) ∧
    OnlyGet (fetch hostSite (steadyNetwork [publicAddress]) (getRequest (.domain ['a']))).1 ∧
    (∃ parts : List (List (Exchange Host)),
      (fetch hostSite (steadyNetwork [publicAddress]) (getRequest (.domain ['a']))).1 =
        parts.flatten ∧ parts.length ≤ 4 ∧ ∀ part ∈ parts, IsAttempt part) ∧
    ∀ response, (fetch hostSite (steadyNetwork [publicAddress])
        (getRequest (.domain ['a']))).2 = .ok response →
      response.body.length ≤ 8 * 1024 * 1024 := by
  refine fetch_stays_outside hostSite (steadyNetwork [publicAddress]) _ fun ip member => ?_
  rcases List.mem_append.mp member with no | brought
  · cases no
  · have known := named_steadyNetwork _ _ ip brought
    rw [List.mem_singleton.mp known]
    exact id

/-- `64:ff9b::10.0.0.1`, the NAT64 form of a private address. -/
def embeddedAddress : Ipv6 := 0x64ff9b00000000000000000a000001#128

/-- A literal host in NAT64 form is connected to although it embeds a private address. -/
theorem nat64_connected :
    ∃ exchange ∈ (fetch hostSite (steadyNetwork []) (getRequest (.ipv6 embeddedAddress))).1,
      ∃ ip ∈ exchange.1.addresses, ¬ Routable hostSite.ranges ip := by
  refine ⟨(.connect .get (.ipv6 embeddedAddress) [.v6 embeddedAddress],
    steadyNetwork [] [] (.resolve [])), ?_, .v6 embeddedAddress, List.mem_singleton_self _, ?_⟩
  · have free : hostIsBlockedLiteral hostSite (.ipv6 embeddedAddress) = false := by decide
    unfold fetch execute
    rw [if_neg (by decide), if_neg (by simp [getRequest, free]), attempts, follow]
    exact List.mem_cons_of_mem _ List.mem_cons_self
  · rintro ⟨routable, -⟩
    have inside := routable 0x0a000001#32 (by decide)
    revert inside
    decide

end Examples

end SP42.Fetch
