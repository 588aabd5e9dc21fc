import Llamactl.Collections.OrderedMap
import Llamactl.Config.Kubeconfig
import Llamactl.Js.Number
import Llamactl.Js.Utf8

open collections js List Option

namespace llamactl.server.register

open kubeconfig

/-! `register.ts` and `bootstrap-tokens.ts`: a node with a bootstrap token is entered in the current context's cluster, and
the bearer it sends becomes the context user's. -/

structure BootstrapToken where
  nodeName : List Nat
  tokenHash : List Nat
  centralUrl : List Nat
  createdAt : List Nat
  expiresAt : DateText
  used : Bool
  usedAt : Option DateText

/-- The files of the tokens directory by name; one that does not parse is `none`. -/
abbrev TokenFiles := OrderedMap (List Nat) (Option BootstrapToken)

/-- What the runtime's library computes. -/
structure Engine where
  /-- `createHash("sha256").update(text, "utf8").digest("hex")` -/
  sha256hex : List Nat → List Nat
  /-- `Buffer.from(text, "base64url").toString("utf8")` -/
  fromBase64url : List Nat → List Nat
  /-- the message of what is thrown on a text that holds no JSON, or `null` -/
  errorText : List Nat → List Nat

section

variable (engine : Engine)

def tokenFilePath (tokenHash : List Nat) : List Nat := tokenHash.take 8 ++ units ".yaml"

def findBootstrapTokenByPlaintext (tokens : TokenFiles) (token : List Nat) : Option BootstrapToken :=
  let tokenHash := engine.sha256hex token
  match tokens.get? (tokenFilePath tokenHash) with
  | some (some record) => if record.tokenHash ≠ tokenHash then none else some record
  | _ => none

inductive ConsumeFailure where
  | notFound
  | expired
  | alreadyUsed
  deriving DecidableEq

def consumeBootstrapToken (tokens : TokenFiles) (now : Instant) (token : List Nat) :
    Except ConsumeFailure (TokenFiles × BootstrapToken) :=
  match findBootstrapTokenByPlaintext engine tokens token with
  | none => .error .notFound
  | some found =>
    if found.used then .error .alreadyUsed
    else if (Date.parse found.expiresAt).any fun expiry => expiry < now.ms then .error .expired
    else
      let updated := { found with used := true, usedAt := some now.text }
      .ok (tokens.set (tokenFilePath updated.tokenHash) (some updated), updated)

end

structure BootstrapBlob where
  url : List Nat
  fingerprint : List Nat
  token : List Nat
  certificate : List Nat

/-- The blob, or the message of what is thrown. -/
def decodeBootstrap (engine : Engine) (encoded : List Nat) : Except (List Nat) BootstrapBlob :=
  let raw := engine.fromBase64url encoded
  match parse raw with
  | none | some .null => .error (engine.errorText raw)
  | some parsed =>
    match parsed.get? "url", parsed.get? "fingerprint", parsed.get? "token", parsed.get? "certificate" with
    | some (.str url), some (.str fingerprint), some (.str token), some (.str certificate) =>
      .ok ⟨url, fingerprint, token, certificate⟩
    | some (.str _), some (.str _), some (.str _), _ => .error (units "bootstrap: missing certificate")
    | some (.str _), some (.str _), _, _ => .error (units "bootstrap: missing token")
    | some (.str _), _, _, _ => .error (units "bootstrap: missing fingerprint")
    | _, _, _, _ => .error (units "bootstrap: missing url")

structure Request where
  method : List Nat
  body : List Nat

inductive Response where
  | registered (nodeName cluster context : List Nat)
  | refused (status : Nat) (error : List Nat)
  /-- the handler throws -/
  | threw
  deriving DecidableEq

structure RegisterRequestBody where
  bootstrapToken : List Nat
  blob : List Nat
  nodeName : Option (List Nat)

def parseRegisterPayload (req : Request) : Except (List Nat) RegisterRequestBody :=
  match parse (decodeText req.body) with
  | some (.obj fields) =>
    match (Json.obj fields).get? "bootstrapToken", (Json.obj fields).get? "blob" with
    | some (.str (unit :: token)), some (.str (first :: blob)) =>
      .ok ⟨unit :: token, first :: blob,
        match (Json.obj fields).get? "nodeName" with
        | some (.str name) => some name
        | _ => none⟩
    | some (.str (_ :: _)), _ => .error (units "blob is required")
    | _, _ => .error (units "bootstrapToken is required")
  | _ => .error (units "invalid JSON body")

def reasonText : ConsumeFailure → List Nat
  | .notFound => units "not-found"
  | .expired => units "expired"
  | .alreadyUsed => units "already-used"

def REASON_STATUS : ConsumeFailure → Nat
  | .notFound => 401
  | .expired => 410
  | .alreadyUsed => 409

inductive Written where
  | written (file : ConfigFile) (cluster context : List Nat)
  | conflict (err : TokenConflictError)
  | threw

def nodeEntry (nodeName : List Nat) (decoded : BootstrapBlob) : ClusterNode where
  name := nodeName
  endpoint := decoded.url
  certificateFingerprint := some decoded.fingerprint
  certificate := some decoded.certificate

def withBearer (userName token : List Nat) (user : User) : User :=
  if user.name = userName then { user with token := some token } else user

def withRegistration (config : Config) (ctx : Context) (nodeName : List Nat) (decoded : BootstrapBlob) : Config :=
  let withUser := { config with users := config.users.map (withBearer ctx.user decoded.token) }
  upsertNode withUser ctx.cluster (nodeEntry nodeName decoded)

def writeRegistration (host : Host) (file : ConfigFile) (nodeName : List Nat) (decoded : BootstrapBlob) : Written :=
  match loadConfig file with
  | none => .threw
  | some config =>
    match currentContext config with
    | none => .threw
    | some ctx =>
      match assertTokenReplaceable host config ctx.cluster ctx.user decoded.token nodeName with
      | .error err => .conflict err
      | .ok () =>
        let next := withRegistration config ctx nodeName decoded
        match saveConfig next, currentContext next with
        | some saved, some ctx => .written saved ctx.cluster ctx.name
        | _, _ => .threw

/-- The central's files that a registration reads and writes. -/
structure Central where
  tokens : TokenFiles
  file : ConfigFile

def handleRegister (engine : Engine) (host : Host) (now : Instant) (req : Request) (central : Central) :
    Central × Response :=
  if req.method ≠ units "POST" then (central, .refused 405 (units "method not allowed"))
  else
    match parseRegisterPayload req with
    | .error message => (central, .refused 400 message)
    | .ok payload =>
      match consumeBootstrapToken engine central.tokens now payload.bootstrapToken with
      | .error reason => (central, .refused (REASON_STATUS reason) (units "bootstrap token " ++ reasonText reason))
      | .ok (tokens, record) =>
        let central := { central with tokens := tokens }
        match decodeBootstrap engine payload.blob with
        | .error message => (central, .refused 400 (units "bootstrap blob invalid: " ++ message))
        | .ok decoded =>
          if payload.nodeName.any (· ≠ record.nodeName) then
            (central, .refused 403 (units "nodeName does not match bootstrap token record"))
          else
            match writeRegistration host central.file record.nodeName decoded with
            | .threw => (central, .threw)
            | .conflict err => (central, .refused 409 err.message)
            | .written file cluster context => ({ central with file := file }, .registered record.nodeName cluster context)

section

variable {host : Host} {before after config : Config} {ctx : Context} {nodeName name contextName : List Nat}
  {decoded : BootstrapBlob} {resolved : Resolved}

structure Other (config : Config) (ctx : Context) (nodeName contextName name : List Nat) (resolved : Resolved) : Prop where
  resolves : resolveNode config name contextName = some resolved
  remote : isRemoteAgent resolved.node = true
  other : ¬(resolved.context.cluster = ctx.cluster ∧ name = nodeName)

/-- A cluster without the entry that a registration may touch. -/
def others (ctx : Context) (nodeName : List Nat) (cluster : Cluster) : Cluster :=
  if cluster.name = ctx.cluster then { cluster with nodes := cluster.nodes.filter fun node => node.name ≠ nodeName } else cluster

/-- No other node is cut off or changed, and nothing but the node's entry is added or replaced. -/
structure Kept (host : Host) (before after : Config) (ctx : Context) (nodeName : List Nat) : Prop where
  bearer : ∀ contextName name resolved, Other before ctx nodeName contextName name resolved →
    ∃ resolved', resolveNode after name contextName = some resolved' ∧ resolved'.node = resolved.node ∧
      resolveToken host resolved'.user = resolveToken host resolved.user
  contexts : after.contexts = before.contexts ∧ after.currentContext = before.currentContext
  only : after.clusters.map (others ctx nodeName) = before.clusters.map (others ctx nodeName)

/-- Every other agent node that shares the user has the incoming bearer already, or is one that the guard looks at: it is
in the context's own cluster and its bearer resolves. -/
def Guarded (host : Host) (config : Config) (ctx : Context) (nodeName incoming : List Nat) : Prop :=
  ∀ contextName name resolved, Other config ctx nodeName contextName name resolved → resolved.context.user = ctx.user →
    resolveToken host resolved.user = some incoming ∨
      (resolved.context.cluster = ctx.cluster ∧ (resolveToken host resolved.user).isSome)

theorem find?_withBearer (userName token : List Nat) (users : List User) (wanted : List Nat) :
    (users.map (withBearer userName token)).find? (fun user => user.name = wanted) =
      (users.find? fun user => user.name = wanted).map (withBearer userName token) := by
  rw [find?_map]
  congr 2
  funext user
  simp only [Function.comp_apply, withBearer]
  split <;> rfl

theorem find?_upserted {entry : ClusterNode} (nodes : List ClusterNode) (hname : name ≠ entry.name) :
    (nodes.filter (fun node => node.name ≠ entry.name) ++ [entry]).find? (fun node => node.name = name) =
      nodes.find? fun node => node.name = name := by
  rw [find?_append, find?_filter]
  have hentry : [entry].find? (fun node => decide (node.name = name)) = none := by simp [hname.symm]
  rw [hentry, or_none]
  congr 1
  funext node
  by_cases hnode : node.name = name
  · simp [hnode, hname]
  · simp [hnode]

theorem find?_upsertNode (config : Config) (clusterName wanted : List Nat) (entry : ClusterNode) :
    (upsertNode config clusterName entry).clusters.find? (fun cluster => cluster.name = wanted) =
      (config.clusters.find? fun cluster => cluster.name = wanted).map fun cluster =>
        if cluster.name ≠ clusterName then cluster
        else { cluster with nodes := cluster.nodes.filter (fun other => other.name ≠ entry.name) ++ [entry] } := by
  simp only [upsertNode, find?_map]
  congr 2
  funext cluster
  simp only [Function.comp_apply]
  split <;> rfl

/-- A virtual node is a provider, so a remote agent stands in its cluster. -/
theorem Other.direct (h : Other config ctx nodeName contextName name resolved) :
    ∃ cluster, (if contextName = [] then currentContext config
        else config.contexts.find? (fun c => c.name = contextName)) = some resolved.context ∧
      config.clusters.find? (fun cluster => cluster.name = resolved.context.cluster) = some cluster ∧
      config.users.find? (fun user => user.name = resolved.context.user) = some resolved.user ∧
      cluster.nodes.find? (fun node => node.name = name) = some resolved.node := by
  obtain ⟨hresolves, hremote, -⟩ := h
  unfold resolveNode at hresolves
  split at hresolves
  · cases hresolves
  next context hcontext =>
    split at hresolves
    next cluster user hcluster huser =>
      split at hresolves
      next node hnode =>
        cases hresolves
        exact ⟨cluster, hcontext, hcluster, huser, hnode⟩
      next hnone =>
        obtain ⟨node, hvirtual, rfl⟩ := map_eq_some_iff.mp hresolves
        have hkind : node.kind = some .provider := by
          unfold resolveVirtualProviderNode at hvirtual
          dsimp only at hvirtual
          split at hvirtual
          · cases hvirtual
          split at hvirtual
          · cases hvirtual
          split at hvirtual
          · cases hvirtual
            rfl
          split at hvirtual
          · cases hvirtual
            rfl
          · cases hvirtual
        simp [isRemoteAgent, resolveNodeKind, hkind] at hremote
    · cases hresolves

theorem Other.registered (h : Other before ctx nodeName contextName name resolved) (decoded : BootstrapBlob) :
    resolveNode (withRegistration before ctx nodeName decoded) name contextName =
      some { resolved with user := withBearer ctx.user decoded.token resolved.user } := by
  obtain ⟨cluster, hcontext, hcluster, huser, hnode⟩ := h.direct
  have hname : cluster.name = resolved.context.cluster := by simpa using find?_some hcluster
  have hcontext' : (if contextName = [] then currentContext (withRegistration before ctx nodeName decoded)
      else (withRegistration before ctx nodeName decoded).contexts.find? (fun c => c.name = contextName)) =
      some resolved.context := hcontext
  have huser' : (withRegistration before ctx nodeName decoded).users.find? (fun user => user.name = resolved.context.user) =
      some (withBearer ctx.user decoded.token resolved.user) := by
    have hfind := find?_withBearer ctx.user decoded.token before.users resolved.context.user
    rw [huser] at hfind
    exact hfind
  have hcluster' := find?_upsertNode { before with users := before.users.map (withBearer ctx.user decoded.token) }
    ctx.cluster resolved.context.cluster (nodeEntry nodeName decoded)
  rw [hcluster, map_some] at hcluster'
  have hnode' : (if cluster.name ≠ ctx.cluster then cluster
      else { cluster with nodes := cluster.nodes.filter (fun other => other.name ≠ (nodeEntry nodeName decoded).name) ++
        [nodeEntry nodeName decoded] }).nodes.find? (fun node => node.name = name) = some resolved.node := by
    split
    · exact hnode
    next heq =>
      have hother : name ≠ (nodeEntry nodeName decoded).name := by
        intro hself
        exact h.other ⟨hname.symm.trans (not_not.mp heq), hself⟩
      rw [find?_upserted cluster.nodes hother, hnode]
  unfold resolveNode
  rw [hcontext']
  dsimp only
  rw [huser', withRegistration, hcluster']
  dsimp only
  rw [hnode']

theorem resolveToken_withBearer {user : User} {userName token : List Nat} (htoken : user.name = userName → token ≠ []) :
    resolveToken host (withBearer userName token user) =
      if user.name = userName then some token else resolveToken host user := by
  unfold withBearer
  split
  next hname => simp [resolveToken, htoken hname]
  · rfl

theorem withRegistration_only (before : Config) (ctx : Context) (nodeName : List Nat) (decoded : BootstrapBlob) :
    (withRegistration before ctx nodeName decoded).clusters.map (others ctx nodeName) =
      before.clusters.map (others ctx nodeName) := by
  simp only [withRegistration, upsertNode, List.map_map]
  apply map_congr_left
  intro cluster _
  by_cases hname : cluster.name = ctx.cluster
  · simp only [others, Function.comp_apply, nodeEntry, hname, ne_eq, not_true_eq_false, if_false, if_true]
    congr 1
    rw [filter_append, List.filter_filter, filter_cons_of_neg (by simp), filter_nil, append_nil]
    apply filter_congr
    intro node _
    by_cases hnode : node.name = nodeName <;> simp [hnode]
  · simp [others, hname]

theorem resolveToken_of_valid {user : User} (hvalid : user.valid = true) :
    resolveToken host user = (user.token <|> user.tokenRef.bind (resolveSecret host)) := by
  simp only [User.valid, Bool.and_eq_true, decide_eq_true_eq] at hvalid
  obtain ⟨⟨-, htoken⟩, -⟩ := hvalid
  unfold resolveToken
  split
  next token heq =>
    have hne : token ≠ [] := fun h => htoken (by rw [heq, h])
    simp [hne, heq]
  next heq => simp [heq]

/-- A node the guard looks at keeps its bearer if the guard lets the registration pass. -/
theorem Other.passed (h : Other before ctx nodeName contextName name resolved) (hvalid : before.valid = true)
    {incoming : List Nat}
    (hguard : assertTokenReplaceable host before ctx.cluster ctx.user incoming nodeName = .ok ())
    (huser : resolved.context.user = ctx.user) (hcluster : resolved.context.cluster = ctx.cluster)
    (hsome : (resolveToken host resolved.user).isSome) : resolveToken host resolved.user = some incoming := by
  obtain ⟨cluster, -, hfindCluster, hfindUser, hnode⟩ := h.direct
  rw [huser] at hfindUser
  rw [hcluster] at hfindCluster
  have hmem := mem_of_find?_eq_some hfindUser
  simp only [Config.valid, Bool.and_eq_true, List.all_eq_true] at hvalid
  obtain ⟨current, hcurrent⟩ := isSome_iff_exists.mp hsome
  have hcurrent' := (resolveToken_of_valid (hvalid.2 _ hmem)).symm.trans hcurrent
  simp only [assertTokenReplaceable, hfindUser, hcurrent', hfindCluster, map_some, getD_some] at hguard
  split at hguard
  next heq => rw [hcurrent, heq]
  · split at hguard
    next hnone =>
      exfalso
      have hname : resolved.node.name = name := by simpa using find?_some hnode
      have hother : name ≠ nodeName := fun hself => h.other ⟨hcluster, hself⟩
      have hin : resolved.node ∈ cluster.nodes.filter fun node => node.name ≠ nodeName && isRemoteAgent node := by
        apply mem_filter.mpr
        exact ⟨mem_of_find?_eq_some hnode, by simp [hname, hother, h.remote]⟩
      rw [map_eq_nil_iff] at hnone
      rw [hnone] at hin
      cases hin
    · cases hguard

theorem Other.bearer_ne (h : Other before ctx nodeName contextName name resolved)
    (hvalid : (withRegistration before ctx nodeName decoded).valid = true) :
    resolved.user.name = ctx.user → decoded.token ≠ [] := by
  rintro hname htoken
  obtain ⟨-, -, -, hfind, -⟩ := h.direct
  have hmem := mem_map_of_mem (f := withBearer ctx.user decoded.token) (mem_of_find?_eq_some hfind)
  simp only [Config.valid, Bool.and_eq_true, List.all_eq_true] at hvalid
  have huser := hvalid.2 _ hmem
  simp [withBearer, hname, htoken, User.valid] at huser

theorem withRegistration_kept_iff (hvalid : before.valid = true)
    (hsaved : (withRegistration before ctx nodeName decoded).valid = true)
    (hguard : assertTokenReplaceable host before ctx.cluster ctx.user decoded.token nodeName = .ok ()) :
    Kept host before (withRegistration before ctx nodeName decoded) ctx nodeName ↔
      Guarded host before ctx nodeName decoded.token := by
  have huserName {contextName name : List Nat} {resolved : Resolved}
      (h : Other before ctx nodeName contextName name resolved) : resolved.user.name = resolved.context.user := by
    obtain ⟨-, -, -, hfind, -⟩ := h.direct
    simpa using find?_some hfind
  constructor
  · intro hkept contextName name resolved h huser
    left
    obtain ⟨resolved', hresolves, -, hsame⟩ := hkept.bearer contextName name resolved h
    rw [h.registered decoded] at hresolves
    cases hresolves
    rw [← hsame, resolveToken_withBearer (h.bearer_ne hsaved), if_pos ((huserName h).trans huser)]
  intro hguarded
  refine ⟨?_, ⟨rfl, rfl⟩, withRegistration_only before ctx nodeName decoded⟩
  intro contextName name resolved h
  refine ⟨_, h.registered decoded, rfl, ?_⟩
  rw [resolveToken_withBearer (h.bearer_ne hsaved), huserName h]
  split
  next huser =>
    obtain hincoming | ⟨hcluster, hsome⟩ := hguarded contextName name resolved h huser
    · exact hincoming.symm
    · exact (h.passed hvalid hguard huser hcluster hsome).symm
  · rfl

end

theorem writeRegistration_written {host : Host} {file next : ConfigFile} {nodeName cluster context : List Nat}
    {decoded : BootstrapBlob} (hwritten : writeRegistration host file nodeName decoded = .written next cluster context) :
    ∃ before ctx, loadConfig file = some before ∧ currentContext before = some ctx ∧
      assertTokenReplaceable host before ctx.cluster ctx.user decoded.token nodeName = .ok () ∧
      (withRegistration before ctx nodeName decoded).valid = true ∧
      loadConfig next = some (withRegistration before ctx nodeName decoded) := by
  unfold writeRegistration at hwritten
  split at hwritten
  · cases hwritten
  next before hload =>
    split at hwritten
    · cases hwritten
    next ctx hctx =>
      split at hwritten
      · cases hwritten
      next hguard =>
        dsimp only at hwritten
        split at hwritten
        next saved _ hsave _ =>
          cases hwritten
          have hnext := loadConfig_saveConfig hsave
          exact ⟨before, ctx, hload, hctx, hguard, loadConfig_valid hnext, hnext⟩
        · cases hwritten

theorem handleRegister_registered {engine : Engine} {host : Host} {now : Instant} {req : Request} {central : Central}
    {nodeName cluster context : List Nat}
    (hok : (handleRegister engine host now req central).2 = .registered nodeName cluster context) :
    ∃ payload tokens record decoded before ctx, parseRegisterPayload req = .ok payload ∧
      consumeBootstrapToken engine central.tokens now payload.bootstrapToken = .ok (tokens, record) ∧
      record.nodeName = nodeName ∧ decodeBootstrap engine payload.blob = .ok decoded ∧
      loadConfig central.file = some before ∧ currentContext before = some ctx ∧
      assertTokenReplaceable host before ctx.cluster ctx.user decoded.token nodeName = .ok () ∧
      (withRegistration before ctx nodeName decoded).valid = true ∧
      loadConfig (handleRegister engine host now req central).1.file = some (withRegistration before ctx nodeName decoded) := by
  unfold handleRegister at hok ⊢
  split at hok
  · cases hok
  next hmethod =>
    rw [if_neg hmethod]
    split at hok
    · cases hok
    next payload hpayload =>
      rw [hpayload]
      dsimp only at hok ⊢
      split at hok
      · cases hok
      next tokens record hconsumed =>
        split at hok
        · cases hok
        next decoded hdecoded =>
          split at hok
          · cases hok
          next hname =>
            rw [if_neg hname]
            split at hok
            · cases hok
            · cases hok
            next file clusterName contextName hwritten =>
              cases hok
              obtain ⟨before, ctx, hload, hctx, hguard, hvalid, hnext⟩ := writeRegistration_written hwritten
              exact ⟨payload, tokens, record, decoded, before, ctx, rfl, hconsumed, rfl, hdecoded, hload, hctx, hguard, hvalid,
                hnext⟩

/-- A registration keeps every other node's bearer exactly when the guard looks at each of those it may cut off. -/
theorem register_keeps_others_iff (engine : Engine) (host : Host) (now : Instant) (req : Request) (central : Central)
    (nodeName cluster context : List Nat)
    (hok : (handleRegister engine host now req central).2 = .registered nodeName cluster context) :
    ∃ payload tokens record decoded before after ctx, parseRegisterPayload req = .ok payload ∧
      consumeBootstrapToken engine central.tokens now payload.bootstrapToken = .ok (tokens, record) ∧
      decodeBootstrap engine payload.blob = .ok decoded ∧ loadConfig central.file = some before ∧
      loadConfig (handleRegister engine host now req central).1.file = some after ∧ currentContext before = some ctx ∧
      (Kept host before after ctx record.nodeName ↔ Guarded host before ctx record.nodeName decoded.token) := by
  obtain ⟨payload, tokens, record, decoded, before, ctx, hpayload, hconsumed, rfl, hdecoded, hload, hctx, hguard, hvalid, hnext⟩ :=
    handleRegister_registered hok
  exact ⟨payload, tokens, record, decoded, before, _, ctx, hpayload, hconsumed, hdecoded, hload, hnext, hctx,
    withRegistration_kept_iff (loadConfig_valid hload) hvalid hguard⟩

section

/-- The library's results on the texts of the sample. -/
def sampleEngine : Engine where
  sha256hex _ := units "6ca13d52ca70c883e0f0bb101e425a89e8624de51db2d2392593af6a84118090"
  fromBase64url _ := units "\x7b\"url\":\"https://gpu1:7843\",\"fingerprint\":\"sha256:aa\",\"token\":\"new\",\"certificate\":\"pem\"\x7d"
  errorText _ := []

def sampleHost : Host where
  env _ := none
  homedir := units "/root"
  files _ := none
  darwin := false
  security _ _ := none

/-- Two contexts with one user: `home` with the local node only, and `lab` with an agent. -/
def sharedUser : Config where
  currentContext := units "home"
  contexts := [⟨units "home", units "home", units "me", units "local", []⟩, ⟨units "lab", units "lab", units "me", units "mac", []⟩]
  clusters := [⟨units "home", [{ name := units "local", endpoint := units "inproc://local" }]⟩,
    ⟨units "lab", [{ name := units "mac", endpoint := units "https://mac:7843" }]⟩]
  users := [⟨units "me", none, some (units "old")⟩]

theorem sharedUser_valid : sharedUser.valid = true := by decide

/-- A token for `gpu1` that is still good. -/
def sampleTokens : TokenFiles :=
  OrderedMap.empty.set (units "6ca13d52.yaml") (some
    { nodeName := units "gpu1"
      tokenHash := units "6ca13d52ca70c883e0f0bb101e425a89e8624de51db2d2392593af6a84118090"
      centralUrl := units "https://central:7843"
      createdAt := units "1970-01-01T00:00:00.000Z"
      expiresAt := .instant 900000
      used := false
      usedAt := none })

def sampleNow : Instant := ⟨5000, by decide, by decide⟩

def sampleRequest : Request where
  method := units "POST"
  body := units "\x7b\"bootstrapToken\":\"abc123\",\"blob\":\"eyJ1cmwiOiJodHRwczovL2dwdTE6Nzg0MyIsImZpbmdlcnByaW50Ijoic2hhMjU2OmFhIiwidG9rZW4iOiJuZXciLCJjZXJ0aWZpY2F0ZSI6InBlbSJ9\"\x7d"

/-- The first node of a fresh installation. -/
theorem register_keeps_others_first :
    (handleRegister sampleEngine sampleHost sampleNow sampleRequest ⟨sampleTokens, .missing⟩).2 =
        .registered (units "gpu1") (units "home") (units "default") ∧
      ∃ payload tokens record decoded before after ctx, parseRegisterPayload sampleRequest = .ok payload ∧
        consumeBootstrapToken sampleEngine sampleTokens sampleNow payload.bootstrapToken = .ok (tokens, record) ∧
        decodeBootstrap sampleEngine payload.blob = .ok decoded ∧ loadConfig .missing = some before ∧
        loadConfig (handleRegister sampleEngine sampleHost sampleNow sampleRequest ⟨sampleTokens, .missing⟩).1.file =
          some after ∧ currentContext before = some ctx ∧
        (Kept sampleHost before after ctx record.nodeName ↔ Guarded sampleHost before ctx record.nodeName decoded.token) := by
  have hok : (handleRegister sampleEngine sampleHost sampleNow sampleRequest ⟨sampleTokens, .missing⟩).2 =
      .registered (units "gpu1") (units "home") (units "default") := by decide +kernel
  exact ⟨hok, register_keeps_others_iff sampleEngine sampleHost sampleNow sampleRequest ⟨sampleTokens, .missing⟩ _ _ _ hok⟩

/-- The guard looks at the cluster `home` only, and the agent in `lab` is reached with the new node's bearer from then on. -/
theorem shared_user_cut_off :
    ¬∀ (engine : Engine) (host : Host) (now : Instant) (req : Request) (central : Central)
      (nodeName cluster context : List Nat) (before after : Config) (ctx : Context),
      (handleRegister engine host now req central).2 = .registered nodeName cluster context →
      loadConfig central.file = some before →
      loadConfig (handleRegister engine host now req central).1.file = some after → currentContext before = some ctx →
      Kept host before after ctx nodeName := by
  intro hclaim
  have hok : (handleRegister sampleEngine sampleHost sampleNow sampleRequest
      ⟨sampleTokens, .config sharedUser sharedUser_valid⟩).2 = .registered (units "gpu1") (units "home") (units "home") := by
    decide +kernel
  obtain ⟨_, _, _, decoded, before, ctx, _, _, _, _, hbefore, hctx, _, _, hafter⟩ := handleRegister_registered hok
  have hkept := hclaim _ _ _ _ _ _ _ _ _ _ _ hok hbefore hafter hctx
  cases hbefore
  cases hctx
  obtain ⟨resolved, hresolves, -, htoken⟩ := hkept.bearer (units "lab") (units "mac")
    ⟨{ name := units "mac", endpoint := units "https://mac:7843" }, ⟨units "lab", units "lab", units "me", units "mac", []⟩,
      ⟨units "me", none, some (units "old")⟩⟩ ⟨rfl, by decide, by decide⟩
  have hnew : (loadConfig (handleRegister sampleEngine sampleHost sampleNow sampleRequest
      ⟨sampleTokens, .config sharedUser sharedUser_valid⟩).1.file).bind (fun config =>
        (resolveNode config (units "mac") (units "lab")).bind fun resolved => resolveToken sampleHost resolved.user) =
      some (units "new") := by decide +kernel
  rw [hafter, bind_some, hresolves, bind_some, htoken] at hnew
  revert hnew
  decide

end

end llamactl.server.register
