import Mathlib.Data.Prod.Lex
import MiniAiCloud.OrderedQuery
import MiniAiCloud.Reachability
import MiniAiCloud.Dag

/-! # Model services and their replicas

    A service desires a number of replicas of its current generation.  The
    reconciler creates and stops replica rows, a controller binds a replica to an
    execution and reports its progress, health checkers and the lease reaper take
    it out of service, and the gateway takes and gives back request slots.  Every
    call locks the row of the service before the row of the replica, so calls on
    one service do not overlap. -/

namespace MiniAiCloud

open Transaction OrderedQuery Reachability

/-- `ACTIVE_REPLICA_STATUSES`. -/
def activeReplicaStatuses : List ReplicaStatus := [.pending, .starting, .loading, .running]

/-- `NONTERMINAL_REPLICA_STATUSES`. -/
def nonterminalReplicaStatuses : List ReplicaStatus :=
  activeReplicaStatuses ++ [.draining, .stopping]

/-! ## Texts -/

/-- `_DNS_1123_LABEL`: `[a-z0-9](?:[-a-z0-9]{0,61}[a-z0-9])?`. -/
def isDnsLabel (label : List Char) : Bool :=
  let alnum (c : Char) := c.isLower || c.isDigit
  label.length ≤ 63 && label.all (fun c => alnum c || c = '-')
    && label.head?.any alnum && label.getLast?.any alnum

/-- The check of `validate_kubernetes_dns_subdomain`. -/
def isDnsSubdomain (value : String) : Bool :=
  value ≠ "" && value = pyStrip value && value.length ≤ 253
    && (value.toList.splitOn '.').all isDnsLabel

/-- `validate_kubernetes_dns_subdomain`. -/
def validateKubernetesDnsSubdomain (value fieldName : String) : Txn String := do
  raiseIf (isDnsSubdomain value = false) (.valueError
    (fieldName ++ " must be a valid Kubernetes DNS-1123 subdomain"))
  pure value

/-- `text.partition(sep)`: what stands before and after the first separator. -/
def partitionAt (sep : Char) (text : List Char) : List Char × Option (List Char) :=
  match text.dropWhile (· ≠ sep) with
  | [] => (text, none)
  | _ :: rest => (text.takeWhile (· ≠ sep), some rest)

/-- `text.rpartition(sep)`: what stands after the last separator, and what stands
    before it where there is one. -/
def rpartitionAt (sep : Char) (text : List Char) : Option (List Char) × List Char :=
  let split := partitionAt sep text.reverse
  (split.2.map List.reverse, split.1.reverse)

/-- The parts `urlsplit` finds in a text. -/
structure SplitUrl where
  scheme : List Char
  netloc : List Char
  path : List Char
  query : List Char
  fragment : List Char

/-- `urlsplit`, without the checks of the host's characters. -/
def urlsplit (text : String) : SplitUrl :=
  let url := (text.toList.dropWhile (fun c => c.toNat ≤ 32)).filter
    (fun c => c ≠ '\t' ∧ c ≠ '\r' ∧ c ≠ '\n')
  let named := partitionAt ':' url
  let (scheme, url) := match named.2 with
    | some rest =>
      if named.1.head?.any Char.isAlpha
          ∧ named.1.all (fun c => c.isAlphanum || c = '+' || c = '-' || c = '.')
      then (named.1.map Char.toLower, rest) else ([], url)
    | none => ([], url)
  let (netloc, url) := match url with
    | '/' :: '/' :: rest =>
      let inside (c : Char) := c ≠ '/' && c ≠ '?' && c ≠ '#'
      (rest.takeWhile inside, rest.dropWhile inside)
    | _ => ([], url)
  let marked := partitionAt '#' url
  let asked := partitionAt '?' marked.1
  { scheme := scheme
    netloc := netloc
    path := asked.1
    query := asked.2.getD []
    fragment := marked.2.getD [] }

/-- `SplitResult.hostname`, empty where it is `None`. -/
def SplitUrl.hostname (url : SplitUrl) : List Char :=
  let hostinfo := (rpartitionAt '@' url.netloc).2
  match (partitionAt '[' hostinfo).2 with
  | some bracketed => (partitionAt ']' bracketed).1
  | none => (partitionAt ':' hostinfo).1

local instance lawfulBEqChars : LawfulBEq (List Char) := inferInstance

/-- `_validate_endpoint_url`.  A user name or password needs an `@`. -/
def validateEndpointUrl (endpointUrl : String) : Txn Unit := do
  let parsed := urlsplit endpointUrl
  raiseIf ('[' ∈ parsed.netloc ∧ ']' ∉ parsed.netloc
      ∨ ']' ∈ parsed.netloc ∧ '[' ∉ parsed.netloc) (.valueError "Invalid IPv6 URL")
  raiseIf (parsed.scheme ∉ ["http".toList, "https".toList]
      ∨ parsed.hostname = []
      ∨ '@' ∈ parsed.netloc
      ∨ parsed.query ≠ []
      ∨ parsed.fragment ≠ []
      ∨ parsed.path ∉ [[], ['/']])
    (.valueError ("endpoint_url must be an absolute HTTP(S) origin without path, "
      ++ "credentials, query or fragment"))

/-- A text of the form `sha256:` and 64 more characters. -/
def isSha256Digest (text : List Char) : Bool :=
  text.take 7 = "sha256:".toList && text.length = 71

/-- `_image_digest`. -/
def imageDigest (image : Option String) : Option String := do
  let image ← image
  let split := rpartitionAt '@' image.toList
  if split.1.isSome ∧ isSha256Digest split.2 then some (String.ofList split.2) else none

/-! ## Rows -/

/-- `ServiceRepository.list_replicas`: by generation, ordinal and id. -/
def listReplicas (db : Db) (serviceId : Uuid) : List (Uuid × ServiceReplica) :=
  orderBy (fun row : Uuid × ServiceReplica =>
      toLex (row.2.generation, toLex (row.2.ordinal, row.1)))
    (db.serviceReplicas.select (fun _ replica => replica.serviceId = serviceId))

/-- The replicas of the current generation, in the same order. -/
def currentReplicas (db : Db) (serviceId : Uuid) (service : ModelService) :
    List (Uuid × ServiceReplica) :=
  (listReplicas db serviceId).filter (fun row => row.2.generation = service.generation)

def saveReplica (replicaId : Uuid) (replica : ServiceReplica) : Txn Unit :=
  modify fun db => { db with
    serviceReplicas := db.serviceReplicas.set replicaId replica }

def saveService (serviceId : Uuid) (service : ModelService) : Txn Unit :=
  modify fun db => { db with modelServices := db.modelServices.set serviceId service }

/-- `_derive_service_status`. -/
def deriveServiceStatus (service : ModelService) (replicas : List ServiceReplica) :
    ServiceStatus :=
  let current := replicas.filter (fun item => item.generation = service.generation)
  let active := current.filter (fun item => item.status ∈ activeReplicaStatuses)
  let stopping := replicas.any (fun item => item.status ∈ [.draining, .stopping])
  let running := current.filter (fun item => item.status = .running)
  let healthy := running.filter (fun item => item.health = .healthy
    ∧ item.endpointUrl.getD "" ≠ "")
  if service.desiredReplicas = 0 then
    if active ≠ [] ∨ stopping then .stopping else .stopped
  else if service.desiredReplicas ≤ healthy.length
      ∧ service.desiredReplicas ≤ running.length then .running
  else if healthy ≠ [] then .degraded
  else if running.any (fun item => item.health = .unhealthy) then .degraded
  else if active ≠ [] ∨ stopping then .deploying
  else .failed

/-- The service once its status is written. -/
def ModelService.derived (service : ModelService) (now : Time) (status : ServiceStatus) :
    ModelService :=
  { service with
    status := status
    updatedAt := now
    version := service.version + 1
    stoppedAt := if status = .stopped then some now else none }

/-- `_refresh_service_status`. -/
def refreshServiceStatus (now : Time) (serviceId : Uuid) (service : ModelService) :
    Txn Unit := do
  let db ← get
  let status := deriveServiceStatus service ((listReplicas db serviceId).map Prod.snd)
  if service.status = status then pure ()
  else saveService serviceId (service.derived now status)

/-! ## Fences -/

/-- `_worker_session_matches`: a call without a session passes. -/
def workerSessionMatches (workerId : Option WorkerId) (workerSessionId : Option Uuid) :
    Txn Bool :=
  match workerSessionId with
  | none => pure true
  | some session => do
      let workerId ← expect workerId
        (.valueError "worker_id is required when worker_session_id is provided")
      let db ← get
      pure ((db.workers.get? workerId).any (fun worker => worker.workerSessionId = session))

/-- A call that answers `False` where the session of its worker is stale. -/
def sessionFenced (workerId : Option WorkerId) (workerSessionId : Option Uuid)
    (body : Txn Bool) : Txn Bool := do
  let current ← workerSessionMatches workerId workerSessionId
  if current then body else pure false

/-- `_lock_service_and_replica`. -/
def lockServiceAndReplica (db : Db) (replicaId : Uuid) :
    Option ModelService × Option ServiceReplica :=
  match db.serviceReplicas.get? replicaId with
  | none => (none, none)
  | some replica => (db.modelServices.get? replica.serviceId, some replica)

/-- What a controller says about the replica it calls for. -/
structure ReplicaFence where
  replicaId : Uuid
  generation : ℤ
  executionId : Uuid
  workerId : Option WorkerId := none
  workerSessionId : Option Uuid := none

/-- A call on a locked replica and its service; it answers `False` where one of them
    is missing or the condition fails. -/
def onReplica (replicaId : Uuid) (condition : ModelService → ServiceReplica → Bool)
    (body : ModelService → ServiceReplica → Txn Unit) : Txn Bool := do
  let db ← get
  match lockServiceAndReplica db replicaId with
  | (some service, some replica) =>
    if condition service replica then do
      body service replica
      pure true
    else pure false
  | _ => pure false

/-- The replica is the one the caller speaks of. -/
def ReplicaFence.Owns (fence : ReplicaFence) (replica : ServiceReplica) : Prop :=
  replica.generation = fence.generation ∧ replica.executionId = some fence.executionId
  deriving Decidable

/-- The conditions of `_owned_current_replica`. -/
def ReplicaFence.OwnsCurrent (fence : ReplicaFence) (service : ModelService)
    (replica : ServiceReplica) : Prop :=
  fence.Owns replica
    ∧ (fence.workerId = none ∨ replica.workerId = fence.workerId)
    ∧ service.generation = fence.generation ∧ service.desiredReplicas ≠ 0
  deriving Decidable

/-! ## The reconciler -/

/-- `_scale_down_order`. -/
def scaleDownOrder (replica : ServiceReplica) : ℤ ×ₗ ℤ :=
  let rank : ℤ :=
    if replica.status = .pending then 0
    else if replica.status ∈ [.starting, .loading] then 1
    else match replica.health with
      | .unhealthy => 2
      | .unknown => 3
      | .healthy => 4
  toLex (rank, -replica.ordinal)

/-- `_request_replica_stop`: the row it leaves, and how many replicas it asked to stop
    and stopped at once. -/
def requestReplicaStop (now : Time) (reason : String) (drainTimeoutSeconds : ℚ)
    (replica : ServiceReplica) : ServiceReplica × ℤ × ℤ :=
  if replica.status ∈ [.draining, .stopping] then (replica, 0, 0)
  else
    let replica := { replica with
      errorMessage := some reason, updatedAt := now, version := replica.version + 1 }
    if replica.status = .pending ∧ replica.executionId = none then
      ({ replica with status := .stopped, stoppedAt := some now }, 0, 1)
    else if replica.status = .running then
      ({ replica with
        status := .draining
        drainStartedAt := some now
        drainDeadline := some (now + drainTimeoutSeconds) }, 1, 0)
    else
      ({ replica with health := .unhealthy, endpointUrl := none, status := .stopping },
        1, 0)

/-- A loop that asks replicas to stop; it adds up the two counts. -/
def stopReplicas (now : Time) (reason : String) (drainTimeoutSeconds : ℚ) :
    List (Uuid × ServiceReplica) → Txn (ℤ × ℤ)
  | [] => pure (0, 0)
  | (replicaId, replica) :: rest => do
      let stop := requestReplicaStop now reason drainTimeoutSeconds replica
      saveReplica replicaId stop.1
      let others ← stopReplicas now reason drainTimeoutSeconds rest
      pure (stop.2.1 + others.1, stop.2.2 + others.2)

/-- The row of a new replica. -/
def ModelService.replica (service : ModelService) (now : Time) (serviceId : Uuid)
    (ordinal : ℤ) : ServiceReplica where
  serviceId := serviceId
  runtime := service.runtime
  generation := service.generation
  ordinal := ordinal
  admission := service.admission
  modelRevision := service.modelRevision
  imageDigest := imageDigest service.image
  createdAt := now
  updatedAt := now

/-- Insert the row of a new replica. -/
def insertReplica (replicaId : Uuid) (replica : ServiceReplica) : Txn Unit := do
  let db ← get
  raiseIf (replica.generation < 1) (.integrityError "generation")
  raiseIf (replica.ordinal < 0) (.integrityError "ordinal")
  raiseIf (db.serviceReplicas.get? replicaId ≠ none)
    (.integrityError "pk_service_replicas")
  raiseIf (∃ row ∈ db.serviceReplicas.rows, row.2.serviceId = replica.serviceId
      ∧ row.2.generation = replica.generation ∧ row.2.ordinal = replica.ordinal)
    (.integrityError "uq_service_replicas_generation_ordinal")
  modify fun db => { db with
    serviceReplicas := db.serviceReplicas.insert replicaId replica }

/-- The loop over the missing ordinals, each with the id minted for it. -/
def createReplicas (now : Time) (serviceId : Uuid) (service : ModelService) :
    List (Uuid × ℤ) → Txn Unit
  | [] => pure ()
  | (replicaId, ordinal) :: rest => do
      insertReplica replicaId (service.replica now serviceId ordinal)
      createReplicas now serviceId service rest

/-- `max((item.ordinal for item in current), default=-1) + 1`. -/
def nextOrdinal (current : List (Uuid × ServiceReplica)) : ℤ :=
  (current.map (fun row => row.2.ordinal)).foldl max (-1) + 1

structure ReconcileResult where
  servicesSeen : ℤ := 0
  replicasCreated : ℤ := 0
  replicasStopping : ℤ := 0
  replicasStopped : ℤ := 0
  servicesUpdated : ℤ := 0

/-- `ServiceRepository.reconcile_locked`, on the locked row of a service; `mint` gives
    the ids of the replicas it creates. -/
def reconcileLocked (now : Time) (drainTimeoutSeconds : ℚ) (serviceId : Uuid)
    (service : ModelService) (mint : ℕ → Uuid) : Txn ReconcileResult := do
  raiseIf (drainTimeoutSeconds < 0)
    (.valueError "drain_timeout_seconds must not be negative")
  let db ← get
  let superseded ← stopReplicas now "generation superseded" drainTimeoutSeconds
    ((listReplicas db serviceId).filter (fun row =>
      row.2.generation ≠ service.generation ∧ row.2.status ∈ nonterminalReplicaStatuses))
  let db ← get
  let unhealthy ← stopReplicas now "replica health threshold exceeded"
    drainTimeoutSeconds ((currentReplicas db serviceId service).filter (fun row =>
      row.2.status = .running ∧ row.2.health = .unhealthy))
  let db ← get
  let active := (currentReplicas db serviceId service).filter
    (fun row => row.2.status ∈ activeReplicaStatuses)
  let excess := active.length - service.desiredReplicas
  let reduced ← stopReplicas now "replica count reduced" drainTimeoutSeconds
    ((orderBy (fun row => scaleDownOrder row.2) active).take excess.toNat)
  let db ← get
  let current := currentReplicas db serviceId service
  let active := current.filter (fun row => row.2.status ∈ activeReplicaStatuses)
  let missing := (service.desiredReplicas - active.length).toNat
  createReplicas now serviceId service ((List.range missing).map
    (fun k => (mint k, nextOrdinal current + k)))
  let db ← get
  let status := deriveServiceStatus service
    ((currentReplicas db serviceId service).map Prod.snd)
  let stopping := superseded.1 + unhealthy.1 + reduced.1
  let stopped := superseded.2 + unhealthy.2 + reduced.2
  let changed := service.status ≠ status ∨ 0 < missing ∨ 0 < stopping ∨ 0 < stopped
  (if changed then saveService serviceId (service.derived now status) else pure () : Txn Unit)
  pure {
    servicesSeen := 1
    replicasCreated := missing
    replicasStopping := stopping
    replicasStopped := stopped
    servicesUpdated := if changed then 1 else 0 }

/-- A reconciliation of the service, if it exists. -/
def reconcileService (now : Time) (drainTimeoutSeconds : ℚ) (serviceId : Uuid)
    (mint : ℕ → Uuid) : Txn Unit := do
  let db ← get
  match db.modelServices.get? serviceId with
  | none => pure ()
  | some service => do
      let _ ← reconcileLocked now drainTimeoutSeconds serviceId service mint
      pure ()

/-! ## The lease reaper -/

/-- The lease of the replica has run out. -/
def ServiceReplica.LeaseExpired (replica : ServiceReplica) (now : Time) : Prop :=
  replica.status ∈ [.starting, .loading, .running, .draining, .stopping]
    ∧ ∃ lease ∈ replica.leaseExpiresAt, lease < now
  deriving Decidable

/-- `expired_lease_services_query`; services locked by others are skipped. -/
def expiredLeaseServices (db : Db) (now : Time) (limit : ℕ) (locked : List Uuid) :
    List (Uuid × ModelService) :=
  let services := db.modelServices.select (fun serviceId _ =>
    serviceId ∉ locked ∧ ∃ row ∈ db.serviceReplicas.rows,
      row.2.serviceId = serviceId ∧ row.2.LeaseExpired now)
  (orderBy (fun row : Uuid × ModelService => toLex (row.2.updatedAt, row.1)) services).take
    limit

/-- A replica whose lease has run out, once it is fenced. -/
def ServiceReplica.expired (replica : ServiceReplica) (now : Time) : ServiceReplica :=
  { replica with
    status := if replica.status ∈ [.draining, .stopping] then .stopped else .lost
    health := .unhealthy
    endpointUrl := none
    leaseExpiresAt := none
    healthProbeToken := none
    healthProbeExpiresAt := none
    activeRequests := 0
    errorCode := some "LEASE_EXPIRED"
    errorMessage := some "service replica lease expired"
    stoppedAt := some now
    updatedAt := now
    version := replica.version + 1 }

/-- The loop over the expired replicas of a service. -/
def expireReplicas (now : Time) : List (Uuid × ServiceReplica) → Txn Unit
  | [] => pure ()
  | (replicaId, replica) :: rest => do
      saveReplica replicaId (replica.expired now)
      expireReplicas now rest

/-- The expired replicas of a service, by lease and id. -/
def expiredReplicas (db : Db) (now : Time) (serviceId : Uuid) :
    List (Uuid × ServiceReplica) :=
  orderBy (fun row : Uuid × ServiceReplica =>
      toLex (row.2.leaseExpiresAt.getD 0, row.1))
    (db.serviceReplicas.select (fun _ replica =>
      replica.serviceId = serviceId ∧ replica.LeaseExpired now))

/-- The loop over the services; it counts the lost and the stopped replicas. -/
def recoverServices (now : Time) : List (Uuid × ModelService) → Txn (ℤ × ℤ)
  | [] => pure (0, 0)
  | (serviceId, service) :: rest => do
      let db ← get
      let replicas := expiredReplicas db now serviceId
      expireReplicas now replicas
      (if replicas ≠ [] then refreshServiceStatus now serviceId service else pure ()
        : Txn Unit)
      let others ← recoverServices now rest
      let stopped := replicas.filter (fun row => (row.2.expired now).status = .stopped)
      pure (replicas.length - stopped.length + others.1, stopped.length + others.2)

structure LeaseRecoveryResult where
  servicesSeen : ℤ := 0
  replicasLost : ℤ := 0
  replicasStopped : ℤ := 0

/-- `ServiceRepository.recover_expired_leases`. -/
def recoverExpiredLeases (now : Time) (limit : ℕ) (locked : List Uuid) :
    Txn LeaseRecoveryResult := do
  let db ← get
  let services := expiredLeaseServices db now limit locked
  let counts ← recoverServices now services
  pure {
    servicesSeen := services.length
    replicasLost := counts.1
    replicasStopped := counts.2 }

/-! ## Controllers -/

/-- The row of a replica once an execution is bound to it. -/
def ServiceReplica.bound (replica : ServiceReplica) (now : Time) (workerId : WorkerId)
    (executionId : Uuid) (leaseExpiresAt : Time) : ServiceReplica :=
  { replica with
    workerId := some workerId
    executionId := some executionId
    leaseExpiresAt := some leaseExpiresAt
    status := .starting
    health := .unknown
    activeRequests := 0
    containerStartedAt := none
    readyAt := none
    drainStartedAt := none
    drainDeadline := none
    errorCode := none
    errorMessage := none
    startedAt := if replica.executionId = none then some now else replica.startedAt
    updatedAt := now
    version := replica.version + 1 }

/-- The execution ids of the table are unique. -/
def checkExecutionUnique (replicaId executionId : Uuid) : Txn Unit := do
  let db ← get
  raiseIf (∃ row ∈ db.serviceReplicas.rows,
      row.1 ≠ replicaId ∧ row.2.executionId = some executionId)
    (.integrityError "uq_service_replicas_execution_id")

/-- `ServiceRepository.bind_replica_execution`. -/
def bindReplicaExecution (now : Time) (replicaId : Uuid) (generation : ℤ)
    (workerId : WorkerId) (workerSessionId : Option Uuid) (executionId : Uuid)
    (leaseExpiresAt : Time) : Txn Bool :=
  sessionFenced (some workerId) workerSessionId <|
    onReplica replicaId (fun service replica =>
        replica.generation = generation
          ∧ service.generation = generation
          ∧ service.desiredReplicas ≠ 0
          ∧ replica.status ∈ [.pending, .starting]
          ∧ (replica.executionId = none ∨ replica.executionId = some executionId)
          ∧ (replica.workerId = none ∨ replica.workerId = some workerId)
          ∧ now < leaseExpiresAt)
      (fun _ replica => do
        checkExecutionUnique replicaId executionId
        saveReplica replicaId (replica.bound now workerId executionId leaseExpiresAt))

/-- `ServiceRepository.renew_replica_lease`. -/
def renewReplicaLease (now : Time) (fence : ReplicaFence) (leaseExpiresAt : Time) :
    Txn Bool :=
  sessionFenced fence.workerId fence.workerSessionId <|
    onReplica fence.replicaId (fun service replica =>
        fence.Owns replica
          ∧ (fence.workerId = none ∨ replica.workerId = fence.workerId)
          ∧ (replica.status ∈ [.draining, .stopping]
            ∨ service.generation = fence.generation
              ∧ service.desiredReplicas ≠ 0
              ∧ replica.status ∈ [.starting, .loading, .running])
          ∧ now < leaseExpiresAt)
      (fun _ replica => saveReplica fence.replicaId { replica with
        leaseExpiresAt := some leaseExpiresAt
        updatedAt := now
        version := replica.version + 1 })

/-- `ServiceRepository.record_replica_assignment`. -/
def recordReplicaAssignment (now : Time) (fence : ReplicaFence) (workerId : WorkerId)
    (nodeName : String) : Txn Bool := do
  let nodeName ← validateKubernetesDnsSubdomain nodeName "assigned_node_name"
  sessionFenced (some workerId) fence.workerSessionId <|
    onReplica fence.replicaId (fun _ replica =>
        fence.Owns replica ∧ replica.workerId = some workerId
          ∧ replica.status ∈ nonterminalReplicaStatuses)
      (fun _ replica => do
        raiseIf (¬ ∃ admission ∈ replica.admission, nodeName ∈ admission.eligibleNodeNames)
          (.valueError "assigned Kubernetes node is outside the immutable eligible set")
        match replica.assignedNodeName with
        | some assigned =>
          raiseIf (assigned ≠ nodeName)
            (.valueError "assigned Kubernetes node changed for an active execution")
        | none => saveReplica fence.replicaId { replica with
            assignedNodeName := some nodeName
            updatedAt := now
            version := replica.version + 1 })

/-- `ServiceRepository.quarantine_replica_runtime`.  The lease is dropped, so the
    reaper leaves the replica alone. -/
def quarantineReplicaRuntime (now : Time) (fence : ReplicaFence) (workerId : WorkerId)
    (errorCode errorMessage : String) : Txn Bool :=
  sessionFenced (some workerId) fence.workerSessionId <|
    onReplica fence.replicaId (fun _ replica =>
        fence.Owns replica ∧ replica.workerId = some workerId
          ∧ replica.status ∈ nonterminalReplicaStatuses)
      (fun service replica => do
        saveReplica fence.replicaId { replica with
          health := .unhealthy
          healthFailureCount := replica.healthFailureCount + 1
          endpointUrl := none
          leaseExpiresAt := none
          errorCode := some errorCode
          errorMessage := some errorMessage
          updatedAt := now
          version := replica.version + 1 }
        refreshServiceStatus now replica.serviceId service)

/-- `ServiceRepository.mark_replica_loading`. -/
def markReplicaLoading (now : Time) (fence : ReplicaFence) (endpointUrl : String) :
    Txn Bool :=
  sessionFenced fence.workerId fence.workerSessionId <|
    onReplica fence.replicaId (fun service replica =>
        fence.OwnsCurrent service replica ∧ replica.status = .starting)
      (fun service replica => do
        validateEndpointUrl endpointUrl
        saveReplica fence.replicaId { replica with
          status := .loading
          endpointUrl := some endpointUrl
          containerStartedAt := some now
          startedAt := replica.startedAt.or (some now)
          errorCode := none
          errorMessage := none
          updatedAt := now
          version := replica.version + 1 }
        refreshServiceStatus now replica.serviceId service)

/-- `ServiceRepository.mark_replica_running`. -/
def markReplicaRunning (now : Time) (fence : ReplicaFence) (endpointUrl : String)
    (modelRevision imageDigest : Option String) : Txn Bool :=
  sessionFenced fence.workerId fence.workerSessionId <|
    onReplica fence.replicaId (fun service replica =>
        fence.OwnsCurrent service replica ∧ replica.status ∈ [.starting, .loading])
      (fun service replica => do
        validateEndpointUrl endpointUrl
        raiseIf (∃ digest ∈ imageDigest, isSha256Digest digest.toList = false)
          (.valueError "image_digest must be a sha256 digest")
        let containerStartedAt := replica.containerStartedAt.or (some now)
        saveReplica fence.replicaId { replica with
          status := .running
          endpointUrl := some endpointUrl
          containerStartedAt := containerStartedAt
          startedAt := replica.startedAt.or containerStartedAt
          readyAt := some now
          modelRevision := modelRevision.or replica.modelRevision
          imageDigest := imageDigest.or replica.imageDigest
          errorCode := none
          errorMessage := none
          updatedAt := now
          version := replica.version + 1 }
        refreshServiceStatus now replica.serviceId service)

/-- The row after a health report; a report of `unhealthy` counts until it reaches the
    threshold. -/
def ServiceReplica.checked (replica : ServiceReplica) (now : Time) (health : ReplicaHealth)
    (errorMessage : Option String) (failureThreshold : ℤ) (probeToken : Option Uuid) :
    ServiceReplica :=
  let replica := if probeToken.isSome then
    { replica with healthProbeToken := none, healthProbeExpiresAt := none } else replica
  let replica := { replica with lastHealthAt := some now }
  let failures := replica.healthFailureCount + 1
  let replica :=
    if health = .healthy then
      { replica with health := .healthy, healthFailureCount := 0, errorCode := none }
    else if failureThreshold ≤ failures then
      { replica with
        healthFailureCount := failures
        health := .unhealthy
        errorCode := some "REPLICA_UNHEALTHY" }
    else { replica with healthFailureCount := failures }
  { replica with
    errorMessage := errorMessage
    updatedAt := now
    version := replica.version + 1 }

/-- `ServiceRepository.record_replica_health`. -/
def recordReplicaHealth (now : Time) (fence : ReplicaFence) (health : ReplicaHealth)
    (errorMessage : Option String) (failureThreshold : ℤ) (probeToken : Option Uuid) :
    Txn Bool :=
  sessionFenced fence.workerId fence.workerSessionId <|
    onReplica fence.replicaId (fun service replica =>
        fence.OwnsCurrent service replica ∧ replica.status = .running
          ∧ (probeToken = none ∨ replica.healthProbeToken = probeToken))
      (fun service replica => do
        raiseIf (health = .unknown)
          (.valueError "reported replica health must be healthy or unhealthy")
        raiseIf (failureThreshold < 1)
          (.valueError "failure_threshold must be at least one")
        saveReplica fence.replicaId
          (replica.checked now health errorMessage failureThreshold probeToken)
        refreshServiceStatus now replica.serviceId service)

/-- `ServiceRepository.mark_replica_terminal`. -/
def markReplicaTerminal (now : Time) (fence : ReplicaFence) (status : ReplicaStatus)
    (errorCode errorMessage : Option String) : Txn Bool := do
  raiseIf (status ∉ [.stopped, .failed, .lost])
    (.valueError "terminal replica status must be stopped, failed or lost")
  sessionFenced fence.workerId fence.workerSessionId <|
    onReplica fence.replicaId (fun _ replica =>
        fence.Owns replica ∧ replica.status ∈ nonterminalReplicaStatuses)
      (fun service replica => do
        saveReplica fence.replicaId { replica with
          status := status
          health := .unhealthy
          endpointUrl := none
          leaseExpiresAt := none
          healthProbeToken := none
          healthProbeExpiresAt := none
          activeRequests := 0
          errorCode := if errorCode ≠ none ∨ status = .stopped then errorCode
            else replica.errorCode
          errorMessage := errorMessage
          stoppedAt := some now
          updatedAt := now
          version := replica.version + 1 }
        refreshServiceStatus now replica.serviceId service)

/-! ## The gateway -/

structure EndpointSelection where
  serviceId : Uuid
  replicaId : Uuid
  generation : ℤ
  executionId : Uuid
  endpointUrl : String
  deriving DecidableEq

/-- The endpoint of a replica that may take a request. -/
def ServiceReplica.endpoint? (replica : ServiceReplica) (serviceId : Uuid)
    (generation : ℤ) (replicaId : Uuid) : Option EndpointSelection :=
  match replica.endpointUrl, replica.executionId with
  | some url, some executionId =>
    if replica.serviceId = serviceId ∧ replica.generation = generation
        ∧ replica.status = .running ∧ replica.health = .healthy ∧ url ≠ ""
    then some ⟨serviceId, replicaId, replica.generation, executionId, url⟩
    else none
  | _, _ => none

/-- The endpoints of a service, by ordinal and id. -/
def healthyEndpoints (db : Db) (serviceId : Uuid) (service : ModelService) :
    List EndpointSelection :=
  (orderBy (fun row : Uuid × ServiceReplica => toLex (row.2.ordinal, row.1))
    db.serviceReplicas.rows).filterMap
      (fun row => row.2.endpoint? serviceId service.generation row.1)

/-- `replicas[service.round_robin_cursor % len(replicas)]`. -/
def roundRobin {α : Type} (cursor : ℤ) (replicas : List α) : Option α :=
  replicas[(cursor % replicas.length).toNat]?

/-- `ServiceRepository.choose_healthy_endpoint`. -/
def chooseHealthyEndpoint (now : Time) (serviceId projectId : Uuid) :
    Txn (Option EndpointSelection) := do
  let db ← get
  match (db.modelServices.get? serviceId).filter (fun service =>
      service.projectId = projectId ∧ service.desiredReplicas ≠ 0) with
  | none => pure none
  | some service =>
    match roundRobin service.roundRobinCursor (healthyEndpoints db serviceId service) with
    | none => pure none
    | some selection => do
        modify fun db => { db with
          serviceReplicas := db.serviceReplicas.modify selection.replicaId
            (fun replica => { replica with
              activeRequests := replica.activeRequests + 1
              updatedAt := now
              version := replica.version + 1 }) }
        saveService serviceId { service with
          roundRobinCursor := service.roundRobinCursor + 1
          updatedAt := now
          version := service.version + 1 }
        pure (some selection)

/-- `ServiceRepository.release_endpoint_request`. -/
def releaseEndpointRequest (now : Time) (replicaId : Uuid) (generation : ℤ)
    (executionId : Uuid) : Txn Bool := do
  let db ← get
  match (lockServiceAndReplica db replicaId).2 with
  | none => pure false
  | some replica =>
    if replica.generation = generation ∧ replica.executionId = some executionId
        ∧ 0 < replica.activeRequests then do
      saveReplica replicaId { replica with
        activeRequests := replica.activeRequests - 1
        updatedAt := now
        version := replica.version + 1 }
      pure true
    else pure false

/-! ## The serving plane as a transition system -/

/-- A call of the reconciler, a controller, a health checker, the reaper or the
    gateway. -/
inductive ServiceOp where
  | reconcileLocked (drainTimeoutSeconds : ℚ) (serviceId : Uuid) (mint : ℕ → Uuid)
  | bindReplicaExecution (replicaId : Uuid) (generation : ℤ) (workerId : WorkerId)
      (workerSessionId : Option Uuid) (executionId : Uuid) (leaseExpiresAt : Time)
  | renewReplicaLease (fence : ReplicaFence) (leaseExpiresAt : Time)
  | recordReplicaAssignment (fence : ReplicaFence) (workerId : WorkerId)
      (nodeName : String)
  | quarantineReplicaRuntime (fence : ReplicaFence) (workerId : WorkerId)
      (errorCode errorMessage : String)
  | markReplicaLoading (fence : ReplicaFence) (endpointUrl : String)
  | markReplicaRunning (fence : ReplicaFence) (endpointUrl : String)
      (modelRevision imageDigest : Option String)
  | recordReplicaHealth (fence : ReplicaFence) (health : ReplicaHealth)
      (errorMessage : Option String) (failureThreshold : ℤ) (probeToken : Option Uuid)
  | markReplicaTerminal (fence : ReplicaFence) (status : ReplicaStatus)
      (errorCode errorMessage : Option String)
  | recoverExpiredLeases (limit : ℕ) (locked : List Uuid)
  | chooseHealthyEndpoint (serviceId projectId : Uuid)
  | releaseEndpointRequest (selection : EndpointSelection)

/-- The transaction of a call. -/
def ServiceOp.txn (now : Time) : ServiceOp → Txn Unit
  | reconcileLocked drainTimeoutSeconds serviceId mint =>
    reconcileService now drainTimeoutSeconds serviceId mint
  | bindReplicaExecution replicaId generation workerId session executionId lease =>
    void (MiniAiCloud.bindReplicaExecution now replicaId generation workerId session
      executionId lease)
  | renewReplicaLease fence lease => void (MiniAiCloud.renewReplicaLease now fence lease)
  | recordReplicaAssignment fence workerId nodeName =>
    void (MiniAiCloud.recordReplicaAssignment now fence workerId nodeName)
  | quarantineReplicaRuntime fence workerId errorCode errorMessage =>
    void (MiniAiCloud.quarantineReplicaRuntime now fence workerId errorCode errorMessage)
  | markReplicaLoading fence url => void (MiniAiCloud.markReplicaLoading now fence url)
  | markReplicaRunning fence url modelRevision imageDigest =>
    void (MiniAiCloud.markReplicaRunning now fence url modelRevision imageDigest)
  | recordReplicaHealth fence health message threshold token =>
    void (MiniAiCloud.recordReplicaHealth now fence health message threshold token)
  | markReplicaTerminal fence status errorCode errorMessage =>
    void (MiniAiCloud.markReplicaTerminal now fence status errorCode errorMessage)
  | recoverExpiredLeases limit locked =>
    void (MiniAiCloud.recoverExpiredLeases now limit locked)
  | chooseHealthyEndpoint serviceId projectId =>
    void (MiniAiCloud.chooseHealthyEndpoint now serviceId projectId)
  | releaseEndpointRequest selection =>
    void (MiniAiCloud.releaseEndpointRequest now selection.replicaId selection.generation
      selection.executionId)

/-- The database, and the selections that were acquired and not yet released. -/
structure Floor where
  db : Db
  held : List EndpointSelection

/-- A call at some time, or what the rest of the platform does to the services and the
    workers in between. -/
inductive ServiceCall where
  | call (now : Time) (op : ServiceOp)
  | elsewhere (services : Table Uuid ModelService) (workers : Table WorkerId Worker)

/-- The selections that are held after a call. -/
def ServiceOp.heldAfter (now : Time) (f : Floor) : ServiceOp → List EndpointSelection
  | chooseHealthyEndpoint serviceId projectId =>
    match returned (MiniAiCloud.chooseHealthyEndpoint now serviceId projectId) f.db with
    | some (some selection) => selection :: f.held
    | _ => f.held
  | releaseEndpointRequest selection => f.held.erase selection
  | _ => f.held

/-- Every call is one transaction.  At first there are no replicas. -/
def serving : System Floor ServiceCall where
  init f := f.db.serviceReplicas = .empty ∧ f.held = []
  step
    | .call now op, f => ⟨commit (op.txn now) f.db, op.heldAfter now f⟩
    | .elsewhere services workers, f =>
      ⟨{ f.db with modelServices := services, workers := workers }, f.held⟩

/-- The selection a call gives back. -/
def ServiceCall.released? : ServiceCall → Option EndpointSelection
  | call _ (.releaseEndpointRequest selection) => some selection
  | _ => none

/-- A release gives back a selection that is held, so each is released at most once. -/
def releasesHeld (i : ServiceCall) (f : Floor) : Prop :=
  ∀ selection ∈ i.released?, selection ∈ f.held
  deriving Decidable

end MiniAiCloud
