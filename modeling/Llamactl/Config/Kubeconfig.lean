import Llamactl.Js.Json
import Llamactl.Js.Text

open js

namespace llamactl.kubeconfig

/-! `secret.ts`: a reference to a secret is resolved in the environment, in a file or in the keychain. -/

inductive SecretBackend where
  | env
  | file
  | keychain
  deriving DecidableEq

/-- What the host answers; a file is `none` where it does not exist or cannot be read. -/
structure Host where
  env : List Nat → Option (List Nat)
  homedir : List Nat
  files : List Nat → Option (List Nat)
  darwin : Bool
  /-- the `security` tool, by service and account -/
  security : List Nat → List Nat → Option (List Nat)

def classify (ref : List Nat) : Option (SecretBackend × List Nat) :=
  let trimmed := trimUnits ref
  if trimmed = [] then none
  else if (units "env:").isPrefixOf trimmed then some (.env, trimmed.drop 4)
  else if (units "$").isPrefixOf trimmed then some (.env, trimmed.drop 1)
  else if (units "keychain:").isPrefixOf trimmed then some (.keychain, trimmed.drop 9)
  else if (units "file:").isPrefixOf trimmed then some (.file, trimmed.drop 5)
  else some (.file, trimmed)

def resolveEnv (host : Host) (varName : List Nat) : Option (List Nat) :=
  if varName = [] then none
  else
    match host.env varName with
    | none => none
    | some value => if value = [] then none else some (trimUnits value)

/-- A leading `~` that is the whole path or stands before a slash is the home directory. -/
def expandHome (host : Host) (path : List Nat) : List Nat :=
  match path with
  | 0x7E :: rest => if rest.head?.all (· = 0x2F) then (host.env (units "HOME")).getD host.homedir ++ rest else path
  | _ => path

def resolveFile (host : Host) (path : List Nat) : Option (List Nat) :=
  if path = [] then none else (host.files (expandHome host path)).map trimUnits

def resolveKeychain (host : Host) (body : List Nat) : Option (List Nat) :=
  let service := body.takeWhile (· ≠ 0x2F)
  let account := body.drop (service.length + 1)
  if 0x2F ∉ body ∨ service = [] ∨ account = [] then none else (host.security service account).map trimUnits

/-- `none` where it throws. -/
def resolveSecret (host : Host) (ref : List Nat) : Option (List Nat) :=
  match classify ref with
  | none => none
  | some (.env, body) => resolveEnv host body
  | some (.file, body) => resolveFile host body
  | some (.keychain, body) => if host.darwin then resolveKeychain host body else none

/-! `schema.ts` and `kubeconfig.ts`: contexts pair a cluster with a user, and the user's token is the bearer of every
agent node of the cluster. -/

inductive NodeKind where
  | agent
  | gateway
  | provider
  | rag
  | cloud
  deriving DecidableEq

inductive CloudProvider where
  | openai
  | anthropic
  | gemini
  | together
  | groq
  | mistral
  | openaiCompatible
  | sirius
  | embersynth
  deriving DecidableEq

/-- The fields that nothing here reads are kept as they were. -/
abbrev Rest := List (List Nat × Json)

structure CloudBinding where
  provider : CloudProvider
  rest : Rest

structure ProviderBinding where
  gateway : List Nat
  providerName : List Nat
  source : Option (List Nat)

structure CliBinding where
  name : List Nat
  rest : Rest

structure ClusterNode where
  name : List Nat
  endpoint : List Nat
  kind : Option NodeKind := none
  certificateFingerprint : Option (List Nat) := none
  certificate : Option (List Nat) := none
  cloud : Option CloudBinding := none
  provider : Option ProviderBinding := none
  rag : Option Rest := none
  cli : Option (List CliBinding) := none
  rest : Rest := []

structure Cluster where
  name : List Nat
  nodes : List ClusterNode

structure Context where
  name : List Nat
  cluster : List Nat
  user : List Nat
  defaultNode : List Nat
  rest : Rest := []

structure User where
  name : List Nat
  tokenRef : Option (List Nat)
  token : Option (List Nat)

structure Config where
  currentContext : List Nat
  contexts : List Context
  clusters : List Cluster
  users : List User

/-- The kind the schema's own check goes by. -/
def nodeValidationKind (node : ClusterNode) : NodeKind :=
  match node.kind with
  | some .cloud => .gateway
  | some kind => kind
  | none =>
    if node.provider.isSome then .provider
    else if node.rag.isSome then .rag
    else if node.cloud.isSome then .gateway
    else .agent

/-- What `ClusterNodeSchema` refuses of a node whose fields have their types. -/
def ClusterNode.valid (node : ClusterNode) : Bool :=
  node.name ≠ [] &&
    if (node.cli.getD []) ≠ [] && nodeValidationKind node ≠ .agent then false
    else
      match nodeValidationKind node with
      | .rag => node.rag.isSome
      | .provider => node.rag.isNone && node.provider.isSome
      | .gateway => node.rag.isNone && node.cloud.isSome
      | _ => node.rag.isNone && node.endpoint ≠ []

def Context.valid (context : Context) : Bool :=
  context.name ≠ [] && context.cluster ≠ [] && context.user ≠ [] && context.defaultNode ≠ []

def User.valid (user : User) : Bool :=
  user.name ≠ [] && user.tokenRef ≠ some [] && user.token ≠ some [] && (user.tokenRef.isSome || user.token.isSome)

/-- `ConfigSchema` -/
def Config.valid (config : Config) : Bool :=
  config.currentContext ≠ [] && config.contexts.all Context.valid &&
    config.clusters.all (fun cluster => cluster.name ≠ [] && cluster.nodes.all ClusterNode.valid) &&
    config.users.all User.valid

def LOCAL_NODE_NAME : List Nat := units "local"

def LOCAL_NODE_ENDPOINT : List Nat := units "inproc://local"

def freshConfig : Config where
  currentContext := units "default"
  contexts := [{ name := units "default", cluster := units "home", user := units "me", defaultNode := LOCAL_NODE_NAME }]
  clusters := [{ name := units "home", nodes := [{ name := LOCAL_NODE_NAME, endpoint := LOCAL_NODE_ENDPOINT }] }]
  users := [{ name := units "me", tokenRef := none, token := some (units "inproc-local") }]

theorem freshConfig_valid : freshConfig.valid = true := by decide

/-- The kubeconfig on disk. What `loadConfig` parses has passed the schema. -/
inductive ConfigFile where
  | missing
  | malformed
  | config (config : Config) (valid : config.valid = true)

/-- `none` where it throws. -/
def loadConfig : ConfigFile → Option Config
  | .missing => some freshConfig
  | .malformed => none
  | .config config _ => some config

theorem loadConfig_valid {file : ConfigFile} {config : Config} (hload : loadConfig file = some config) :
    config.valid = true := by
  cases file with
  | missing =>
    cases hload
    exact freshConfig_valid
  | malformed => cases hload
  | config stored hvalid =>
    cases hload
    exact hvalid

/-- `none` where the schema refuses. -/
def saveConfig (config : Config) : Option ConfigFile :=
  if h : config.valid = true then some (.config config h) else none

theorem loadConfig_saveConfig {config : Config} {file : ConfigFile} (hsave : saveConfig config = some file) :
    loadConfig file = some config := by
  unfold saveConfig at hsave
  split at hsave
  · cases hsave
    rfl
  · cases hsave

def resolveNodeKind (node : ClusterNode) : NodeKind :=
  match node.kind with
  | some kind => kind
  | none =>
    if node.provider.isSome then .provider
    else if node.rag.isSome then .rag
    else
      match node.cloud with
      | some cloud =>
        if cloud.provider = .sirius ∨ cloud.provider = .embersynth ∨ cloud.provider = .openaiCompatible then .gateway
        else .cloud
      | none => .agent

/-- `none` where it throws. -/
def currentContext (config : Config) : Option Context :=
  config.contexts.find? fun context => context.name = config.currentContext

/-- A provider that stands behind a gateway or an agent, named `<parent>.<leaf>`. -/
def resolveVirtualProviderNode (cluster : Cluster) (nodeName : List Nat) : Option ClusterNode :=
  let parentName := nodeName.takeWhile (· ≠ 0x2E)
  let leafName := nodeName.drop (parentName.length + 1)
  if parentName = [] ∨ leafName = [] then none
  else
    match cluster.nodes.find? fun node => node.name = parentName with
    | none => none
    | some parent =>
      if parent.cloud.isSome then
        some { name := nodeName, endpoint := [], kind := some .provider, provider := some ⟨parentName, leafName, none⟩ }
      else if (parent.cli.getD []).any fun binding => binding.name = leafName then
        some { name := nodeName, endpoint := [], kind := some .provider,
               provider := some ⟨parentName, leafName, some (units "cli")⟩ }
      else none

structure Resolved where
  node : ClusterNode
  context : Context
  user : User

/-- `none` where it throws; without a name the current context is meant. -/
def resolveNode (config : Config) (nodeName contextName : List Nat) : Option Resolved :=
  match if contextName = [] then currentContext config else config.contexts.find? (fun c => c.name = contextName) with
  | none => none
  | some context =>
    match config.clusters.find? fun cluster => cluster.name = context.cluster,
      config.users.find? fun user => user.name = context.user with
    | some cluster, some user =>
      match cluster.nodes.find? fun node => node.name = nodeName with
      | some node => some ⟨node, context, user⟩
      | none => (resolveVirtualProviderNode cluster nodeName).map fun node => ⟨node, context, user⟩
    | _, _ => none

/-- An agent that is reached over the network with the user's bearer. -/
def isRemoteAgent (node : ClusterNode) : Bool :=
  resolveNodeKind node = .agent && !(units "inproc://").isPrefixOf node.endpoint

structure TokenConflictError where
  message : List Nat
  userName : List Nat
  nodes : List (List Nat)

/-- The guard of the paths that overwrite the context user's bearer. -/
def assertTokenReplaceable (host : Host) (config : Config) (clusterName userName incomingToken nodeName : List Nat) :
    Except TokenConflictError Unit :=
  match config.users.find? fun user => user.name = userName with
  | none => .ok ()
  | some user =>
    match user.token <|> user.tokenRef.bind (resolveSecret host) with
    | none => .ok ()
    | some current =>
      if current = incomingToken then .ok ()
      else
        let cluster := config.clusters.find? fun cluster => cluster.name = clusterName
        let nodes := ((cluster.map Cluster.nodes).getD []).filter fun node => node.name ≠ nodeName && isRemoteAgent node
        let names := nodes.map ClusterNode.name
        if names = [] then .ok ()
        else
          .error
            { message := units "user '" ++ userName ++
                units "' already has a token; replacing it would cut off " ++ units (toString names.length) ++
                units " other agent node(s): " ++ List.intercalate (units ", ") names
              userName := userName
              nodes := names }

/-- `none` where it throws. -/
def resolveToken (host : Host) (user : User) : Option (List Nat) :=
  match user.token with
  | some token => if token = [] then user.tokenRef.bind (resolveSecret host) else some token
  | none => user.tokenRef.bind (resolveSecret host)

def upsertNode (config : Config) (clusterName : List Nat) (node : ClusterNode) : Config :=
  { config with
    clusters := config.clusters.map fun cluster =>
      if cluster.name ≠ clusterName then cluster
      else { cluster with nodes := cluster.nodes.filter (fun other => other.name ≠ node.name) ++ [node] } }

end llamactl.kubeconfig
