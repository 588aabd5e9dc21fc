import Llamactl.Server.Serve

open collections js List
open llamactl.inference (Claims)

namespace llamactl.server.serve

/-! What runs without an operator's bearer. -/

/-- The router's names are written without escapes, commas and slashes. -/
theorem appRouter_plain : ∀ name ∈ appRouter, 0x25 ∉ name ∧ 0x2C ∉ name ∧ 0x2F ∉ name := by decide +kernel

theorem mem_piece {sep unit : Nat} {text : List Nat} (hunit : unit ≠ sep) (hmem : unit ∈ text) :
    ∃ piece ∈ text.splitOn sep, unit ∈ piece := by
  induction text with
  | nil => cases hmem
  | cons head rest ih =>
    rw [splitOn_cons_eq_if_modifyHead]
    by_cases hsep : head = sep
    · obtain ⟨piece, hpiece, hin⟩ := ih (mem_of_ne_of_mem (fun h => hunit (h.trans hsep)) hmem)
      exact ⟨piece, by simp [hsep, hpiece], hin⟩
    obtain ⟨first, others, hsplit⟩ := exists_cons_of_ne_nil (splitOn_ne_nil sep rest)
    simp only [beq_iff_eq, hsep, if_false, hsplit, modifyHead_cons]
    obtain rfl | hrest := mem_cons.mp hmem
    · exact ⟨unit :: first, mem_cons_self, mem_cons_self⟩
    obtain ⟨piece, hpiece, hin⟩ := ih hrest
    rw [hsplit] at hpiece
    obtain rfl | hother := mem_cons.mp hpiece
    · exact ⟨head :: piece, mem_cons_self, mem_cons_of_mem _ hin⟩
    · exact ⟨piece, mem_cons_of_mem _ hother, hin⟩

theorem named_mem_pieces {trpc : Trpc} (htakes : trpc.TakesRest) {req : Request} {endpoint rest decoded : List Nat}
    (hpath : req.pathname = endpoint ++ 0x2F :: rest) (hdecoded : decodeURIComponent rest = some decoded)
    (hpieces : ∀ piece ∈ decoded.splitOn 0x2C, piece ∈ appRouter) {name : List Nat}
    (hname : name ∈ trpc.named endpoint req) (hrouter : name ∈ appRouter) : name ∈ decoded.splitOn 0x2C := by
  obtain ⟨hnoEscape, hnoComma, hnoSlash⟩ := appRouter_plain name hrouter
  have hrest : 0x2F ∉ rest := by
    intro hslash
    obtain ⟨piece, hpiece, hin⟩ := mem_piece (by decide : 0x2F ≠ 0x2C)
      (mem_of_decodeURIComponent ⟨by decide, by decide⟩ hslash hdecoded)
    exact (appRouter_plain piece (hpieces piece hpiece)).2.2 hin
  unfold Trpc.named at hname
  rw [hpath] at hname
  dsimp only at hname
  obtain htaken | htaken := htakes endpoint rest hrest
  · rw [htaken] at hname
    split at hname
    · rwa [hdecoded] at hname
    obtain rfl := mem_singleton.mp hname
    rw [decodeURIComponent_plain hnoEscape] at hdecoded
    cases hdecoded
    rw [splitOn_eq_singleton hnoComma]
    exact mem_cons_self
  rw [htaken] at hname
  split at hname
  · rw [decodeURIComponent_cons (by decide), hdecoded] at hname
    obtain ⟨first, others, hsplit⟩ := exists_cons_of_ne_nil (splitOn_ne_nil 0x2C decoded)
    simp only [Option.map_some, Option.getD_some, splitOn_cons_eq_if_modifyHead, hsplit,
      modifyHead_cons] at hname
    obtain rfl | hother := mem_cons.mp hname
    · exact absurd mem_cons_self hnoSlash
    · exact hsplit ▸ mem_cons_of_mem first hother
  · obtain rfl := mem_singleton.mp hname
    exact absurd mem_cons_self hnoSlash

theorem named_of_inferenceRpcOnly {trpc : Trpc} (htakes : trpc.TakesRest) {req : Request} {endpoint name : List Nat}
    (honly : inferenceRpcOnly req.pathname endpoint = true) (hname : name ∈ trpc.named endpoint req)
    (hrouter : name ∈ appRouter) : name ∈ inferenceRpcProcedures := by
  unfold inferenceRpcOnly at honly
  rw [Bool.and_eq_true, isPrefixOf_iff_prefix] at honly
  obtain ⟨⟨rest, hpath⟩, hall⟩ := honly
  rw [← hpath, drop_left] at hall
  have hslash : req.pathname = endpoint ++ 0x2F :: rest := by
    rw [← hpath, append_assoc]
    rfl
  cases hdecoded : decodeURIComponent rest with
  | none =>
    rw [hdecoded] at hall
    cases hall
  | some decoded =>
    rw [hdecoded] at hall
    have hpieces : ∀ piece ∈ decoded.splitOn 0x2C, piece ∈ inferenceRpcProcedures := fun piece hpiece =>
      of_decide_eq_true (all_eq_true.mp hall piece hpiece)
    exact hpieces name (named_mem_pieces htakes hslash hdecoded
      (fun piece hpiece => mem_append_right _ (hpieces piece hpiece)) hname hrouter)

theorem named_of_negotiateOnly {trpc : Trpc} (htakes : trpc.TakesRest) {req : Request} {endpoint name : List Nat}
    (honly : negotiateOnly req.pathname endpoint = true) (hname : name ∈ trpc.named endpoint req)
    (hrouter : name ∈ appRouter) : name = units "inferenceRpc.negotiate" := by
  have hplain : 0x25 ∉ units "inferenceRpc.negotiate" ∧ 0x2C ∉ units "inferenceRpc.negotiate" := by decide
  have hpiece : (units "inferenceRpc.negotiate").splitOn 0x2C = [units "inferenceRpc.negotiate"] :=
    splitOn_eq_singleton hplain.2
  have hrpc : units "inferenceRpc.negotiate" ∈ inferenceRpcProcedures := by decide +kernel
  have hunder : units "/inferenceRpc.negotiate" = 0x2F :: units "inferenceRpc.negotiate" := by decide +kernel
  have hpath : req.pathname = endpoint ++ 0x2F :: units "inferenceRpc.negotiate" := by
    rw [← hunder]
    exact of_decide_eq_true honly
  have hmem := named_mem_pieces htakes hpath (decodeURIComponent_plain hplain.1)
    (by rw [hpiece]; exact forall_mem_singleton.mpr (mem_append_right _ hrpc)) hname hrouter
  rw [hpiece] at hmem
  exact mem_singleton.mp hmem

/-! Who a request comes from. -/

def Operator (crypto : Crypto) (req : Request) (opts : StartAgentOptions) : Prop :=
  verifyBearer crypto req opts.tokenHash = .ok true

def Named (crypto : Crypto) (req : Request) (opts : StartAgentOptions) : Prop :=
  ∃ name, namedBearerFor crypto (extractBearer req) (opts.bearerTokens.getD []) = .ok (some name)

def ServiceCredential (crypto : Crypto) (req : Request) (opts : StartAgentOptions) (claims : Claims) : Prop :=
  ∃ bindings, opts.workerRpc = some (some bindings) ∧ ∃ binding ∈ bindings, ∃ token,
    extractBearer req = some token ∧ bearerHashMatches crypto token binding.tokenHash = .ok true ∧
      claimsOf binding = claims

/-- No-auth is enabled, both ends are on the loopback interface and the path lies under `/v1/`. -/
def NoAuth (req : Request) (address : Option ClientAddress) (opts : StartAgentOptions) : Prop :=
  opts.noAuth = some true ∧ underV1 req.pathname = true ∧ isLoopbackAddress (some opts.bindHostText) = true ∧
    isLoopbackAddress (address.map ClientAddress.address) = true

variable {crypto : Crypto} {req : Request} {address : Option ClientAddress} {opts : StartAgentOptions}

theorem authGateReject_admits (hadmitted : authGateReject crypto req address opts = .ok false) :
    NoAuth req address opts ∨ Operator crypto req opts ∨ Named crypto req opts := by
  unfold authGateReject at hadmitted
  split at hadmitted
  · next hnoAuth =>
    refine .inl ?_
    unfold allowNoAuth at hnoAuth
    simpa [NoAuth, and_assoc] using hnoAuth
  obtain ⟨primary, hprimary, hadmitted⟩ := bind_eq_ok.mp hadmitted
  split at hadmitted
  · next htrue =>
    rw [htrue] at hprimary
    exact .inr (.inl hprimary)
  obtain ⟨found, hfound, hnone⟩ := bind_eq_ok.mp hadmitted
  cases found with
  | none => cases hnone
  | some name => exact .inr (.inr ⟨name, hfound⟩)

theorem serviceClaims_credential {claims : Claims} (hclaims : serviceClaims crypto req opts = .ok (some claims)) :
    inferenceRpcOnly req.pathname opts.endpointText = true ∧ ServiceCredential crypto req opts claims := by
  unfold serviceClaims at hclaims
  split at hclaims
  · cases hclaims
  · next settings hserved =>
    split at hclaims
    · next honly =>
      obtain ⟨found, hfound, hreturn⟩ := bind_eq_ok.mp hclaims
      cases found with
      | none => cases hreturn
      | some binding =>
        obtain ⟨token, htoken, hmem, hmatches⟩ := entryFor_some crypto hfound
        cases settings with
        | none => cases hmem
        | some bindings => exact ⟨honly, bindings, hserved, binding, hmem, token, htoken, hmatches, by cases hreturn; rfl⟩
    · cases hclaims

/-- Whatever path, batch and query a request has, a procedure that runs without an operator's bearer and without a named
one is `negotiate` without claims, or one of the worker RPC with the claims of a service credential, or lies under
`/v1/` where no-auth allows it. -/
theorem agentFetch_admits {trpc : Trpc} (htakes : trpc.TakesRest) (handlers : ApiHandlers) {handled : Handled}
    (hhandled : agentFetch crypto trpc handlers req address opts = .ok handled) {call : Call}
    (hcall : call ∈ handled.calls) (hoperator : ¬ Operator crypto req opts) (hnamed : ¬ Named crypto req opts) :
    call.procedure = units "inferenceRpc.negotiate" ∧ call.claims = none ∨
      call.procedure ∈ inferenceRpcProcedures ∧
        (∃ claims, call.claims = some claims ∧ ServiceCredential crypto req opts claims) ∨
      NoAuth req address opts := by
  have hgate : authGateReject crypto req address opts = .ok false → NoAuth req address opts := by
    intro hadmitted
    obtain hnoAuth | hother := authGateReject_admits hadmitted
    · exact hnoAuth
    · exact absurd hother (not_or.mpr ⟨hoperator, hnamed⟩)
  unfold agentFetch at hhandled
  split at hhandled
  · cases hhandled
    cases hcall
  split at hhandled
  · obtain ⟨denied, hdenied, hhandled⟩ := bind_eq_ok.mp hhandled
    cases denied with
    | true =>
      cases hhandled
      cases hcall
    | false => exact .inr (.inr (hgate hdenied))
  split at hhandled
  · cases hhandled
    cases hcall
  obtain ⟨claims, hclaims, hhandled⟩ := bind_eq_ok.mp hhandled
  obtain ⟨denied, hdenied, hhandled⟩ := bind_eq_ok.mp hhandled
  cases denied with
  | true =>
    cases hhandled
    cases hcall
  | false =>
    cases hhandled
    obtain ⟨name, hname, rfl⟩ := mem_map.mp hcall
    obtain ⟨hname, hrouter⟩ := mem_filter.mp hname
    have hrouter := of_decide_eq_true hrouter
    cases claims with
    | some claims =>
      obtain ⟨honly, hcredential⟩ := serviceClaims_credential hclaims
      exact .inr (.inl ⟨named_of_inferenceRpcOnly htakes honly hname hrouter, claims, rfl, hcredential⟩)
    | none =>
      unfold trpcDenied at hdenied
      split at hdenied
      · exact .inr (.inr (hgate hdenied))
      · next hnegotiate =>
        refine .inl ⟨named_of_negotiateOnly htakes ?_ hname hrouter, rfl⟩
        simpa using hnegotiate

section

def sampleCrypto : Crypto where
  hashToken token := token
  hex text := text.map UInt8.ofNat

/-- The adapter on a path right under the endpoint. -/
def sampleTrpc : Trpc where
  path endpoint pathname := pathname.drop (endpoint.length + 1)
  batched search := search = units "?batch=1"

def sampleClaims : Claims where
  serviceId := "svc"
  operations := [.status]
  deployments := []
  models := []
  tenants := ["t"]
  credentialScopeId := "scope"

def sampleOptions : StartAgentOptions where
  tokenHash := units "operator"
  workerRpc := some (some [{ claims := sampleClaims, tokenHash := units "credential", tunnelKey := none }])

/-- A batch in another spelling, with a service credential. -/
def sampleRequest : Request where
  method := units "GET"
  pathname := units "/trpc/inferenceRpc%2Estatus%2CinferenceRpc.cancel"
  search := units "?batch=1"
  authorization := some (units "Bearer credential")

def sampleCall : Call := { procedure := units "inferenceRpc.status", claims := some sampleClaims }

theorem agentFetch_admits_batch : sampleCall ∈ [sampleCall, { sampleCall with procedure := units "inferenceRpc.cancel" }] ∧
    (sampleCall.procedure = units "inferenceRpc.negotiate" ∧ sampleCall.claims = none ∨
      sampleCall.procedure ∈ inferenceRpcProcedures ∧
        (∃ claims, sampleCall.claims = some claims ∧ ServiceCredential sampleCrypto sampleRequest sampleOptions claims) ∨
      NoAuth sampleRequest none sampleOptions) := by
  have htakes : sampleTrpc.TakesRest := by
    intro endpoint rest _
    refine .inl ?_
    simp [sampleTrpc, drop_append]
  have hhandled : agentFetch sampleCrypto sampleTrpc (fun _ _ => []) sampleRequest none sampleOptions =
      .ok (.ran [sampleCall, { sampleCall with procedure := units "inferenceRpc.cancel" }]) := by decide +kernel
  have hoperator : verifyBearer sampleCrypto sampleRequest sampleOptions.tokenHash = .ok false := by decide +kernel
  refine ⟨mem_cons_self, agentFetch_admits htakes (fun _ _ => []) hhandled mem_cons_self ?_ ?_⟩
  · intro htrue
    cases htrue.symm.trans hoperator
  · rintro ⟨name, hname⟩
    cases hname

end

end llamactl.server.serve
