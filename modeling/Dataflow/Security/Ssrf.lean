import Dataflow.Library.Addresses
import Mathlib.Data.Set.Defs

/-!
# The guarded HTTP client

Requests to addresses that a user or tenant gives go through one client. It looks the host up
itself, skips the addresses in its list of networks and dials the first other one that answers; a
redirect is followed if it stays on https and on the origin of the first request.

* `deniedNetworks`, `isDenied`, `dialContext`: the networks, and the loop over what DNS answers.
* `isDenied_iff`: the list is exactly the loopback, private and link-local addresses. It lacks
  those of multicast and the unspecified ones.
* `Client.follow`: a request with its redirects.
* `Client.Guarded`: the addresses dialed are allowed, the redirects followed are those
  promised.
* `guarded_iff`: **main result**: only addresses of the internet are dialed iff no answer has an
  unspecified or multicast one.
-/

namespace Dataflow.Security

open Library.Addresses List

/-! ## The addresses denied -/

/-- `deniedNetworks`: 10.0.0.0/8, 172.16.0.0/12, 192.168.0.0/16, 127.0.0.0/8, 169.254.0.0/16,
::1/128, fc00::/7 and fe80::/10. -/
def deniedNetworks : List IPNet :=
  [cidr [10, 0, 0, 0] 8, cidr [172, 16, 0, 0] 12, cidr [192, 168, 0, 0] 16, cidr [127, 0, 0, 0] 8,
    cidr [169, 254, 0, 0] 16, cidr (replicate 15 0 ++ [1]) 128,
    cidr (0xfc :: replicate 15 0) 7, cidr (0xfe :: 0x80 :: replicate 14 0) 10]

/-- `IsDenied`. -/
def isDenied (ip : IP) : Bool := deniedNetworks.any fun network => network.contains ip

variable {ip : IP}

theorem isDenied_iff_of_to4 {x : IP} (h : ip.to4 = some x) : isDenied ip = true ↔
      ip.isLoopback = true ∨ ip.isPrivate = true ∨ ip.isLinkLocalUnicast = true := by
  obtain ⟨a, b, c, d, rfl⟩ := exists_bytes_of_to4 h
  have hdenied : isDenied ip = true ↔ a = 10 ∨ a = 172 ∧ b &&& 240 = 16 ∨ a = 192 ∧ b = 168 ∨
      a = 127 ∨ a = 169 ∧ b = 254 := by
    simp [isDenied, deniedNetworks, IPNet.contains, h, cidr, cidrMask, masked]
  rw [hdenied]
  simp only [IP.isLoopback, IP.isPrivate, IP.isLinkLocalUnicast, h]
  simp
  tauto

theorem isDenied_iff_of_none (h : ip.to4 = none) : isDenied ip = true ↔
      ip.isLoopback = true ∨ ip.isPrivate = true ∨ ip.isLinkLocalUnicast = true := by
  have hself : (replicate 15 0 ++ [1] : IP).to4 = none := by decide
  by_cases h16 : ip.length = 16
  · match ip, h16 with
    | [b₀, b₁, b₂, b₃, b₄, b₅, b₆, b₇, b₈, b₉, b₁₀, b₁₁, b₁₂, b₁₃, b₁₄, b₁₅], _ =>
      have hdenied :
          isDenied [b₀, b₁, b₂, b₃, b₄, b₅, b₆, b₇, b₈, b₉, b₁₀, b₁₁, b₁₂, b₁₃, b₁₄, b₁₅] =
          true ↔ [b₀, b₁, b₂, b₃, b₄, b₅, b₆, b₇, b₈, b₉, b₁₀, b₁₁, b₁₂, b₁₃, b₁₄, b₁₅] =
            replicate 15 0 ++ [1] ∨ b₀ &&& 254 = 252 ∨ b₀ = 254 ∧ b₁ &&& 192 = 128 := by
        simp [isDenied, deniedNetworks, IPNet.contains, h, cidr, cidrMask, masked]
      rw [hdenied, ← equal_iff_of_to4 h hself]
      simp [IP.isLoopback, IP.isPrivate, IP.isLinkLocalUnicast, h]
  · -- an address of no version is in no network
    have hne : ip.isLoopback = false := by
      rw [IP.isLoopback, h, Bool.eq_false_iff, ne_eq, equal_iff_of_to4 h hself]
      rintro rfl
      exact h16 rfl
    have hdenied : isDenied ip = false := by
      simp [isDenied, deniedNetworks, IPNet.contains, h, cidr, cidrMask, masked,
        length_ne_four h, h16]
    simp [hdenied, hne, IP.isPrivate, IP.isLinkLocalUnicast, h, h16]

/-- **The networks denied** are those of the loopback, private and link-local addresses. -/
theorem isDenied_iff (ip : IP) : isDenied ip = true ↔
    ip.isLoopback = true ∨ ip.isPrivate = true ∨ ip.isLinkLocalUnicast = true := by
  cases h : ip.to4 with
  | some x => exact isDenied_iff_of_to4 h
  | none => exact isDenied_iff_of_none h

-- 127.0.0.1, mapped into IPv6
example : isDenied (replicate 10 0 ++ [255, 255, 127, 0, 0, 1]) = true := by decide

/-- Of an address that is not denied, two kinds are left. -/
theorem globallyRoutable_iff (h : isDenied ip = false) :
    ip.GloballyRoutable ↔ ip.isUnspecified = false ∧ ip.isMulticast = false := by
  have hkinds := (isDenied_iff ip).not.mp (by rw [h]; exact Bool.false_ne_true)
  simp only [not_or, Bool.not_eq_true] at hkinds
  simp only [IP.GloballyRoutable, hkinds, true_and, and_comm]

/-- None of the two is denied. -/
theorem not_isDenied (h : ip.isUnspecified = true ∨ ip.isMulticast = true) :
    isDenied ip = false := by
  rw [Bool.eq_false_iff, ne_eq, isDenied_iff]
  cases hto4 : ip.to4 with
  | some x =>
    obtain ⟨a, b, c, d, rfl⟩ := exists_bytes_of_to4 hto4
    have hfirst : a = 0 ∨ a &&& 240 = 224 := by
      rcases h with h | h
      · left
        exact (cons.inj ((isUnspecified_iff_of_to4 hto4).mp h)).1
      · right
        simpa [IP.isMulticast, hto4] using h
    have hdenied : ∀ n ∈ ([10, 127, 169, 172, 192] : List (BitVec 8)),
        ¬ (n = 0 ∨ n &&& 240 = 224) := by decide
    have hne : ∀ n ∈ ([10, 127, 169, 172, 192] : List (BitVec 8)), a ≠ n := by
      rintro n hn rfl
      exact hdenied a hn hfirst
    simp only [IP.isLoopback, IP.isPrivate, IP.isLinkLocalUnicast, hto4]
    simp only [forall_mem_cons] at hne
    obtain ⟨h10, h127, h169, h172, h192, -⟩ := hne
    simpa using ⟨h127, ⟨⟨h10, fun h => absurd h h172⟩, fun h => absurd h h192⟩,
      fun h => absurd h h169⟩
  | none =>
    have hone : ip.isLoopback = true ↔ ip = replicate 15 0 ++ [1] := by
      rw [IP.isLoopback, hto4]
      exact equal_iff_of_to4 hto4 (by decide)
    have hfirst : ip = replicate 16 0 ∨ ip.head? = some 255 := by
      rcases h with h | h
      · exact .inl ((isUnspecified_iff_of_none hto4).mp h)
      · right
        simp only [IP.isMulticast, hto4, Bool.and_eq_true, beq_iff_eq] at h
        exact h.2
    rcases hfirst with rfl | hhead
    · rw [hone]
      decide
    · have hloopback : ¬ ip = replicate 15 0 ++ [1] := by
        rintro rfl
        exact absurd hhead (by decide)
      have hprivate : ip.isPrivate = false := by simp [IP.isPrivate, hto4, hhead]
      have hlocal : ip.isLinkLocalUnicast = false := by
        rw [head?_eq_getElem?] at hhead
        simp [IP.isLinkLocalUnicast, hto4, hhead]
      rw [hone, hprivate, hlocal, or_iff_left (by decide)]
      exact hloopback

/-! ## Dialing -/

/-- What is outside when a connection is made: the parts of `host:port`, the answer of DNS, and
whether the dialer gets through to an address and port. -/
structure Network where
  splitHostPort : String → Except String (String × String)
  lookupIP : String → Except String (List IP)
  dial : IP → String → Except String Unit
  text : IP → String

/-- An attempt to connect: the addresses that were dialed, and the one that the connection is to. -/
structure Dialed where
  tried : List IP
  conn : Except String IP

/-- The loop of `dialContext` over the addresses. -/
def dialAddresses (network : Network) (host port : String) (lastErr : Option String) :
    List IP → Dialed
  | [] => ⟨[], .error (lastErr.getD ("no addresses found for " ++ host))⟩
  | ip :: ips =>
    if isDenied ip then
      dialAddresses network host port
        (some ("target address " ++ network.text ip ++ " is not allowed")) ips
    else
      match network.dial ip port with
      | .ok () => ⟨[ip], .ok ip⟩
      | .error dialErr =>
        let rest := dialAddresses network host port (some dialErr) ips
        ⟨ip :: rest.tried, rest.conn⟩

/-- `dialContext`. -/
def dialContext (network : Network) (addr : String) : Dialed :=
  match network.splitHostPort addr with
  | .error err => ⟨[], .error err⟩
  | .ok (host, port) =>
    match network.lookupIP host with
    | .error err => ⟨[], .error err⟩
    | .ok ips => dialAddresses network host port none ips

variable {network : Network} {host port addr : String} {ips : List IP} {lastErr : Option String}

/-- Only addresses of the answer are dialed, and none that is denied. -/
theorem of_mem_tried (h : ip ∈ (dialAddresses network host port lastErr ips).tried) :
    ip ∈ ips ∧ isDenied ip = false := by
  induction ips generalizing lastErr with
  | nil => cases h
  | cons first ips ih =>
    unfold dialAddresses at h
    split_ifs at h with hdenied
    · obtain ⟨hmem, hip⟩ := ih h
      exact ⟨mem_cons_of_mem _ hmem, hip⟩
    · have hfirst : isDenied first = false := by simpa using hdenied
      split at h
      · obtain rfl := mem_singleton.mp h
        exact ⟨mem_cons_self, hfirst⟩
      · rcases mem_cons.mp h with rfl | h
        · exact ⟨mem_cons_self, hfirst⟩
        · obtain ⟨hmem, hip⟩ := ih h
          exact ⟨mem_cons_of_mem _ hmem, hip⟩

/-- A connection is to an address that was dialed. -/
theorem mem_tried_of_conn (h : (dialAddresses network host port lastErr ips).conn = .ok ip) :
    ip ∈ (dialAddresses network host port lastErr ips).tried := by
  induction ips generalizing lastErr with
  | nil => cases h
  | cons first ips ih =>
    unfold dialAddresses at h ⊢
    split_ifs at h ⊢ with hdenied
    · exact ih h
    · split at h
      · obtain rfl := Except.ok.inj h
        exact mem_singleton.mpr rfl
      · exact mem_cons_of_mem _ (ih h)

/-- What `dialContext` dials was answered for some host. -/
theorem of_mem_dialContext (h : ip ∈ (dialContext network addr).tried) :
    ∃ host ips, network.lookupIP host = .ok ips ∧ ip ∈ ips ∧ isDenied ip = false := by
  unfold dialContext at h
  split at h
  · cases h
  · next host port _ =>
      split at h
      · cases h
      · next ips hips => exact ⟨host, ips, hips, of_mem_tried h⟩

theorem mem_dialContext_of_conn (h : (dialContext network addr).conn = .ok ip) :
    ip ∈ (dialContext network addr).tried := by
  unfold dialContext at h ⊢
  split at h
  · cases h
  · split at h
    · cases h
    · exact mem_tried_of_conn h

/-- **An address that is not denied can be connected to**, where no other one answers. -/
theorem conn_of_only (hmem : ip ∈ ips) (hip : isDenied ip = false)
    (honly : ∀ x, network.dial x port = .ok () ↔ x = ip) :
    (dialAddresses network host port lastErr ips).conn = .ok ip := by
  induction ips generalizing lastErr with
  | nil => cases hmem
  | cons first ips ih =>
    unfold dialAddresses
    by_cases hfirst : first = ip
    · rw [hfirst, if_neg (by simp [hip]), (honly ip).mpr rfl]
    · have hrest := mem_of_ne_of_mem (Ne.symm hfirst) hmem
      split_ifs with hdenied
      · exact ih hrest
      · split
        · next hdial => exact absurd ((honly first).mp hdial) hfirst
        · exact ih hrest

/-! ## The client -/

/-- A scheme as `url.Parse` leaves it: in lower case, or empty. -/
def isScheme (scheme : String) : Bool :=
  match scheme.toList with
  | [] => true
  | c :: cs =>
    c.isLower && cs.all fun c => c.isLower || c.isDigit || c == '+' || c == '-' || c == '.'

/-- `url.URL`: `Scheme`, `Hostname()`, `Port()` and everything else. -/
structure Url where
  scheme : String
  hostname : String
  port : String
  rest : String
  parsed : isScheme scheme = true

/-- What the client uses of the standard library: `url.Parse` and `URL.String`, the case folding of
`strings.EqualFold`, and the `host:port` of a request. -/
structure Client where
  parse : String → Except String Url
  string : Url → String
  scheme_string : ∀ u u', parse (string u) = .ok u' → u'.scheme = u.scheme
  simpleFold : Char → Char
  addr : Url → String

/-- `maxRedirects`. -/
def maxRedirects : ℕ := 10

namespace Client

variable (c : Client)

/-- `ValidateURL`. -/
def validateURL (raw : String) : Except String Url :=
  if raw = "" then .error "URL is required"
  else
    match c.parse raw with
    | .error err => .error ("invalid URL: " ++ err)
    | .ok parsed =>
      if parsed.scheme ≠ "https" then .error "URL must use https"
      else if parsed.hostname = "" then .error "URL must have a host"
      else .ok parsed

/-- `strings.EqualFold`. -/
def equalFold (s t : String) : Bool := s.toList.map c.simpleFold == t.toList.map c.simpleFold

/-- `effectivePort`. -/
def effectivePort (value : Url) : String :=
  if value.port ≠ "" then value.port
  else if c.equalFold value.scheme "https" then "443"
  else if c.equalFold value.scheme "http" then "80"
  else ""

/-- `sameOrigin`. -/
def sameOrigin (left right : Url) : Bool :=
  c.equalFold left.scheme right.scheme && c.equalFold left.hostname right.hostname &&
    c.effectivePort left == c.effectivePort right

/-- The `CheckRedirect` of `NewHTTPClient`. -/
def checkRedirect (req : Url) (via : List Url) : Except String Unit :=
  if via.length ≥ maxRedirects then
    .error ("stopped after " ++ toString maxRedirects ++ " redirects")
  else
    match c.validateURL (c.string req) with
    | .error err => .error ("redirect target: " ++ err)
    | .ok _ =>
      if via.head?.all fun first => c.sameOrigin first req then .ok ()
      else .error "redirect target must remain on the original origin"

end Client

/-! ## Requests and redirects -/

/-- What comes back on a connection. -/
inductive Reply where
  | response
  | redirect (target : Url)
  | failed (err : String)

/-- What is outside in one request of a chain. -/
structure Hop where
  network : Network
  reply : Reply

/-- A request that the client sends, or tries to. -/
structure Request where
  url : Url
  dialed : Dialed

namespace Client

variable (c : Client)

/-- `http.Client.Do`: the requests, and what is returned when there is no redirect to follow any
more. The requests before this one are `via`. -/
def follow (via : List Url) (req : Url) : List Hop → List Request × Option (Except String Unit)
  | [] => ([], none)
  | hop :: hops =>
    let request : Request := ⟨req, dialContext hop.network (c.addr req)⟩
    match request.dialed.conn with
    | .error err => ([request], some (.error err))
    | .ok _ =>
      match hop.reply with
      | .response => ([request], some (.ok ()))
      | .failed err => ([request], some (.error err))
      | .redirect target =>
        match c.checkRedirect target (via ++ [req]) with
        | .error err => ([request], some (.error err))
        | .ok () =>
          let rest := follow (via ++ [req]) target hops
          (request :: rest.1, rest.2)

/-- A request that stays on https and on the origin of the first. -/
structure Stays (first url : Url) : Prop where
  https : url.scheme = "https"
  scheme : c.equalFold first.scheme "https" = true
  hostname : c.equalFold first.hostname url.hostname = true
  port : (if first.port = "" then "443" else first.port) = if url.port = "" then "443" else url.port

/-- The requests that the client may make: to addresses of the internet, and after the first one
only where that stays. -/
structure Guarded (first : Url) (requests : List Request) : Prop where
  tried : ∀ request ∈ requests, ∀ ip ∈ request.dialed.tried, ip.GloballyRoutable
  connected : ∀ request ∈ requests, ∀ ip, request.dialed.conn = .ok ip → ip.GloballyRoutable
  stays : ∀ request ∈ requests.tail, c.Stays first request.url

variable {c} {via : List Url} {first req target : Url} {hop : Hop} {hops : List Hop}

theorem scheme_of_validateURL {u : Url} (h : c.validateURL (c.string target) = .ok u) :
    target.scheme = "https" := by
  unfold validateURL at h
  split_ifs at h
  split at h
  · cases h
  · next parsed hparse =>
      split_ifs at h with hscheme
      rw [← c.scheme_string target parsed hparse]
      exact not_not.mp hscheme

/-- **A redirect that is followed** stays on the origin of the first request. -/
theorem stays_of_checkRedirect (h : c.checkRedirect target via = .ok ()) :
    via.length < maxRedirects ∧ ∀ first ∈ via.head?, c.Stays first target := by
  by_cases hlength : via.length ≥ maxRedirects
  · simp [checkRedirect, if_pos hlength] at h
  rw [checkRedirect, if_neg hlength] at h
  refine ⟨Nat.lt_of_not_le hlength, ?_⟩
  cases hvalid : c.validateURL (c.string target) with
  | error err =>
    simp [hvalid] at h
  | ok u =>
    have hhttps := scheme_of_validateURL hvalid
    rw [hvalid] at h
    dsimp only at h
    split_ifs at h with horigin
    intro first hfirst
    rw [Option.mem_def.mp hfirst] at horigin
    simp only [Option.all_some, sameOrigin, Bool.and_eq_true, beq_iff_eq, hhttps] at horigin
    obtain ⟨⟨hscheme, hhost⟩, hport⟩ := horigin
    refine ⟨hhttps, hscheme, hhost, ?_⟩
    have hself : c.equalFold "https" "https" = true := by simp [equalFold]
    simpa [effectivePort, hhttps, hscheme, hself] using hport

/-- The first request of a chain, and the rest if a redirect is followed. -/
theorem follow_cons (via : List Url) (req : Url) (hop : Hop) (hops : List Hop) :
    (c.follow via req (hop :: hops)).1 = [⟨req, dialContext hop.network (c.addr req)⟩] ∨
      ∃ target, c.checkRedirect target (via ++ [req]) = .ok () ∧
        (c.follow via req (hop :: hops)).1 =
          ⟨req, dialContext hop.network (c.addr req)⟩ :: (c.follow (via ++ [req]) target hops).1 := by
  rw [follow]
  split
  · exact .inl rfl
  · split
    · exact .inl rfl
    · exact .inl rfl
    · split
      · exact .inl rfl
      · next hcheck => exact .inr ⟨_, hcheck, rfl⟩

/-- The first request is made in any case. -/
theorem mem_follow (via : List Url) (req : Url) (hop : Hop) (hops : List Hop) :
    ⟨req, dialContext hop.network (c.addr req)⟩ ∈ (c.follow via req (hop :: hops)).1 := by
  rcases follow_cons (c := c) via req hop hops with heq | ⟨target, -, heq⟩
  · rw [heq]
    exact mem_singleton.mpr rfl
  · rw [heq]
    exact mem_cons_self

/-- After the first request every other one stays. -/
theorem stays_of_mem (hfirst : via.head? = some first) (hreq : c.Stays first req) :
    ∀ request ∈ (c.follow via req hops).1, c.Stays first request.url := by
  induction hops generalizing via req with
  | nil => simp [follow]
  | cons hop hops ih =>
    rcases follow_cons (c := c) via req hop hops with heq | ⟨target, hcheck, heq⟩
    · rw [heq]
      simpa using hreq
    · have hhead : (via ++ [req]).head? = some first := by simp [head?_append, hfirst]
      have hstays := (stays_of_checkRedirect hcheck).2 first hhead
      rw [heq, forall_mem_cons]
      exact ⟨hreq, ih hhead hstays⟩

/-- **The requests of a chain**: each is dialed by the guard, and the redirects followed are those
that stay. -/
theorem stays_tail (hops : List Hop) :
    ∀ request ∈ (c.follow [] first hops).1.tail, c.Stays first request.url := by
  cases hops with
  | nil => simp [follow]
  | cons hop hops =>
    rcases follow_cons (c := c) [] first hop hops with heq | ⟨target, hcheck, heq⟩
    · simp [heq]
    · rw [heq, tail_cons]
      exact stays_of_mem rfl ((stays_of_checkRedirect hcheck).2 first rfl)

/-- A request is dialed in its own hop. -/
theorem exists_hop_of_mem {request : Request} (h : request ∈ (c.follow via req hops).1) :
    ∃ hop ∈ hops, request.dialed = dialContext hop.network (c.addr request.url) := by
  induction hops generalizing via req with
  | nil => simp [follow] at h
  | cons hop hops ih =>
    rcases follow_cons (c := c) via req hop hops with heq | ⟨target, -, heq⟩
    · rw [heq, mem_singleton] at h
      exact ⟨hop, mem_cons_self, by rw [h]⟩
    · rw [heq] at h
      rcases mem_cons.mp h with rfl | h
      · exact ⟨hop, mem_cons_self, rfl⟩
      · obtain ⟨hop', hmem, hdialed⟩ := ih h
        exact ⟨hop', mem_cons_of_mem _ hmem, hdialed⟩

/-- If no answer has one of the two kinds, the client is guarded. -/
theorem guarded_of_answers {answers : Set (List IP)}
    (hanswers : ∀ ips ∈ answers, ∀ ip ∈ ips, ip.isUnspecified = false ∧ ip.isMulticast = false)
    (hhops : ∀ hop ∈ hops, ∀ host ips, hop.network.lookupIP host = .ok ips → ips ∈ answers) :
    c.Guarded first (c.follow [] first hops).1 := by
  have htried : ∀ request ∈ (c.follow [] first hops).1, ∀ ip ∈ request.dialed.tried,
      ip.GloballyRoutable := by
    intro request hrequest ip hip
    obtain ⟨hop, hhop, hdialed⟩ := exists_hop_of_mem hrequest
    rw [hdialed] at hip
    obtain ⟨host, ips, hlookup, hmem, hallowed⟩ := of_mem_dialContext hip
    exact (globallyRoutable_iff hallowed).mpr
      (hanswers ips (hhops hop hhop host ips hlookup) ip hmem)
  refine ⟨htried, ?_, stays_tail hops⟩
  intro request hrequest ip hconn
  apply htried request hrequest
  obtain ⟨hop, -, hdialed⟩ := exists_hop_of_mem hrequest
  rw [hdialed] at hconn ⊢
  exact mem_dialContext_of_conn hconn

end Client

/-- A host whose name is looked up once, and of whose addresses one answers. -/
def soleHop (ips : List IP) (ip : IP) : Hop where
  network :=
    { splitHostPort := fun addr => .ok (addr, "443")
      lookupIP := fun _ => .ok ips
      dial := fun x _ => if x = ip then .ok () else .error "connection refused"
      text := fun _ => "address" }
  reply := .response

def exampleUrl : Url := ⟨"https", "example.com", "", "/start", by decide⟩

/-- **The client only dials addresses of the internet, whatever answers and redirects there are, iff
no answer of DNS has an unspecified or multicast address**; it follows only redirects that stay. -/
theorem guarded_iff (c : Client) (answers : Set (List IP)) : (∀ (first : Url) (hops : List Hop),
      (∀ hop ∈ hops, ∀ host ips, hop.network.lookupIP host = .ok ips → ips ∈ answers) →
        c.Guarded first (c.follow [] first hops).1) ↔
      ∀ ips ∈ answers, ∀ ip ∈ ips, ip.isUnspecified = false ∧ ip.isMulticast = false := by
  constructor
  · intro h ips hips ip hip
    by_contra hkinds
    have hallowed : isDenied ip = false := by
      apply not_isDenied
      rw [Classical.not_and_iff_not_or_not] at hkinds
      simpa using hkinds
    have hconn : (dialContext (soleHop ips ip).network (c.addr exampleUrl)).conn = .ok ip := by
      apply conn_of_only hip hallowed
      intro x
      simp [soleHop]
    have hguarded := h exampleUrl [soleHop ips ip] (by simpa [soleHop] using hips)
    have hroutable :=
      hguarded.connected _ (Client.mem_follow [] exampleUrl (soleHop ips ip) []) ip hconn
    exact hkinds ((globallyRoutable_iff hallowed).mp hroutable)
  · intro hanswers first hops hhops
    exact Client.guarded_of_answers hanswers hhops

/-! ## A host without an address -/

theorem ne_colon_of_isScheme {scheme : String} (h : isScheme scheme = true) :
    ∀ c ∈ scheme.toList, c ≠ ':' := by
  unfold isScheme at h
  split at h
  · next heq => simp [heq]
  · next first cs heq =>
      rw [Bool.and_eq_true, all_eq_true] at h
      rw [heq, forall_mem_cons]
      constructor
      · rintro rfl
        exact absurd h.1 (by decide)
      · rintro c hc rfl
        exact absurd (h.2 _ hc) (by decide)

/-- `url.Parse` of a URL `scheme://host:port/path`. -/
def exampleParse (raw : String) : Except String Url :=
  let scheme := String.ofList (raw.toList.takeWhile (· ≠ ':'))
  let authority := (raw.toList.dropWhile (· ≠ ':')).drop 3
  let port := (authority.takeWhile (· ≠ '/')).dropWhile (· ≠ ':')
  if h : isScheme scheme = true then
    .ok ⟨scheme, String.ofList ((authority.takeWhile (· ≠ '/')).takeWhile (· ≠ ':')),
      String.ofList port.tail, String.ofList (authority.dropWhile (· ≠ '/')), h⟩
  else .error "first path segment in URL cannot contain colon"

theorem scheme_exampleParse {scheme tail : String} (hscheme : isScheme scheme = true) {u : Url}
    (h : exampleParse (scheme ++ (":" ++ tail)) = .ok u) : u.scheme = scheme := by
  have hread : ∀ c ∈ scheme.toList, decide (c ≠ ':') = true :=
    fun c hc => decide_eq_true (ne_colon_of_isScheme hscheme c hc)
  unfold exampleParse at h
  dsimp only at h
  split_ifs at h
  obtain rfl := Except.ok.inj h
  simp only [String.toList_append, takeWhile_append_of_pos hread]
  simp

def exampleClient : Client where
  parse := exampleParse
  string u := u.scheme ++
    (":" ++ ("//" ++ u.hostname ++ (if u.port = "" then "" else ":" ++ u.port) ++ u.rest))
  scheme_string u _ h := scheme_exampleParse u.parsed h
  simpleFold := Char.toLower
  addr u := u.hostname ++ ":" ++ if u.port = "" then "443" else u.port

/-- The host has the address 0.0.0.0, which is the machine itself. -/
theorem not_guarded_unspecified : ¬ exampleClient.Guarded exampleUrl
      (exampleClient.follow [] exampleUrl [soleHop [[0, 0, 0, 0]] [0, 0, 0, 0]]).1 := by
  intro h
  have hroutable := h.connected _
    (Client.mem_follow [] exampleUrl (soleHop [[0, 0, 0, 0]] [0, 0, 0, 0]) []) [0, 0, 0, 0] rfl
  exact absurd hroutable (by decide)

end Dataflow.Security
