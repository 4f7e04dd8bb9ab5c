import LedgerNode.Node.Lifecycle
import LedgerNode.Proofs.Gossip.Acquaintance
import LedgerNode.Proofs.Ledger.Frame

namespace LedgerNode

/-!
# What a directory leaves behind

A directory saves its peers when it is shut down, whatever became of its start.
What it saved before is taken over while it starts, as soon as it listens for
peers; whatever fails afterwards, it knows everybody again.  A node that was never
started, or that could not listen, knows nobody and saves that.

So the peers of earlier runs outlive a run if, and only if, it came to listen.
-/

/-! ## Creation -/

namespace Disk

/-- What the store in a folder holds. -/
def contentsIn (disk : Disk) (folder : String) : Contents :=
  (disk.stores.get? (Path.normal folder)).getD ∅

theorem contentsIn_keep (disk : Disk) (engine : Engine) :
    (disk.keep engine).contentsIn engine.path = engine.contents := by
  rw [contentsIn, keep, OrderedMap.get?_insert_self]
  rfl

theorem of_openStore {folder : String} {disk next : Disk} {engine : Engine}
    (opened : (openStore folder).run.run disk = (.ok engine, next)) :
    engine = ⟨folder, disk.contentsIn folder, true⟩ := by
  rcases Action.of_run_bind opened with ⟨seen, between, looked, opened⟩
  cases looked
  cases made : disk.files.makeFolder folder with
  | error fault =>
      rw [made] at opened
      cases congrArg Prod.fst opened
  | ok files =>
      rw [made] at opened
      cases congrArg Prod.fst opened
      rfl

theorem of_onStore {engine after : Engine} {action : StoreAction Value} {disk next : Disk}
    {value : Value} (done : (onStore engine action).run.run disk = (.ok (value, after), next)) :
    after = (action.run engine).2 := by
  rcases Action.of_run_bind done with ⟨_, _, _, done⟩
  rcases Action.of_run_bind done with ⟨_, _, _, done⟩
  cases congrArg Prod.fst done
  rfl

end Disk

namespace Node

/-- A node that was created works on the store that was there, and the check of the
ledger has left the peers in it alone. -/
theorem of_create {config : Config} {secret : Nat} {disk made : Disk} {node : Node}
    (created : (create config secret).run.run disk = (.ok node, made)) :
    ∃ mode identity engine, node = ofParts config mode identity engine ∧
      RecordStore.peers.Same
        ⟨config.databaseFolder, disk.contentsIn config.databaseFolder, true⟩ engine := by
  rcases Action.of_run_bind created with ⟨mode, first, moded, created⟩
  have untouched : disk = first := congrArg Prod.snd moded
  subst untouched
  rcases Action.of_run_bind created with ⟨engine, second, opened, created⟩
  rcases Action.of_run_bind created with ⟨⟨outcome, checked⟩, third, checking, created⟩
  rcases Action.of_run_bind created with ⟨identity, fourth, _, created⟩
  refine ⟨mode, identity, checked, (Except.ok.inj (congrArg Prod.fst created)).symm, ?_⟩
  rw [Disk.of_onStore checking, Disk.of_openStore opened]
  exact Ledger.peers_outside.check.run _

/-! ## What happens to a running node -/

/-- The node is in the same mode and place, the peers in its store are the same, and
what it knows has moved along a relation. -/
structure Follows (Moves : Registry → Registry → Prop) (before after : Node) : Prop where
  mode : after.mode = before.mode
  stopped : after.stopped = before.stopped
  listening : after.gossipAddress = before.gossipAddress
  store : RecordStore.peers.Same before.engine after.engine
  registry : Moves before.registry after.registry

variable {Moves : Registry → Registry → Prop} [preorder : IsPreorder Registry Moves]

instance : IsPreorder Node (Follows Moves) where
  refl _ := ⟨rfl, rfl, rfl, .refl _ _, preorder.refl _⟩
  trans _ _ _ first second :=
    ⟨second.mode.trans first.mode, second.stopped.trans first.stopped,
      second.listening.trans first.listening, first.store.trans second.store,
      preorder.trans _ _ _ first.registry second.registry⟩

theorem leads_outcome (outcome : Except Fault Value) : Leads (Follows Moves) (ofExcept outcome) :=
  .outcome outcome

omit preorder in
theorem leads_onOverlay {action : OverlayAction Value}
    (leads : Leads (fun before after => Moves before.registry after.registry) action) :
    Leads (Follows Moves) (onOverlay action) :=
  fun node => ⟨rfl, rfl, rfl, .refl _ _, leads node.overlay⟩

theorem leads_onStore {action : StoreAction Value} (spares : action.Spares RecordStore.peers) :
    Leads (Follows Moves) (onStore action) :=
  fun node => ⟨rfl, rfl, rfl, spares.run node.engine, preorder.refl _⟩

theorem leads_onLedger {action : LedgerAction Value}
    (spares : action.Spares RecordStore.peers) : Leads (Follows Moves) (onLedger action) :=
  fun node => ⟨rfl, rfl, rfl, spares.run node.waiting node.engine, preorder.refl _⟩

theorem leads_attempt {action : NodeAction Unit} (leads : Leads (Follows Moves) action) :
    Leads (Follows Moves) (attempt action) :=
  leads.tryCatch fun _ => .pure ()

theorem leads_fail (failure : NodeFailure) : Leads (Follows Moves) (fail failure) :=
  .modify fun _ => ⟨rfl, rfl, rfl, .refl _ _, preorder.refl _⟩

/-- What happens to a node between its start and its end. -/
inductive Incident where
  | received (network : Network) (source : IpAddress) (bytes : Bytes)
  | produced (network : Network) (timestamp : Int64)
  | interrupted

def Incident.perform : Incident → NodeAction Unit
  | received network source bytes => receive network source bytes
  | produced network timestamp => produce network timestamp
  | interrupted => do let _ ← interrupt

def live (node : Node) (incidents : List Incident) : Node :=
  incidents.foldl (fun node incident => (incident.perform.run.run node).2) node

theorem Incident.leads (incident : Incident) :
    Leads (Follows Registry.Grows) incident.perform := by
  cases incident with
  | received network source bytes =>
      refine Leads.get.bind fun seen => ?_
      split
      · refine (leads_attempt (leads_onOverlay
          (Overlay.leads_handleConnection network source bytes))).bind fun _ => ?_
        refine (leads_onOverlay (Overlay.leads_takeAll blocksTopic)).bind fun messages => ?_
        refine Leads.get.bind fun node => ?_
        exact leads_onLedger (Ledger.peers_outside.handleAll node.id messages)
      · exact .pure ()
  | produced network timestamp =>
      refine Leads.get.bind fun seen => ?_
      split
      · refine Leads.tryCatch ?_ fun fault => leads_fail (.productionFailed fault)
        refine (leads_onStore (Ledger.peers_outside.produce timestamp)).bind fun messages => ?_
        exact Leads.forM (fun data => leads_attempt
          (leads_onOverlay (Overlay.leads_publish network blocksTopic data))) messages
      · exact .pure ()
  | interrupted =>
      exact fun node => ⟨rfl, rfl, rfl, .refl _ _, .refl node.registry⟩

/-- Nothing happens to what a node knows that does not listen. -/
theorem Incident.of_deaf {node : Node} (deaf : node.gossipAddress = none) (incident : Incident) :
    Follows Eq node (incident.perform.run.run node).2 := by
  have rests : node.isRunning = false := by rw [isRunning, deaf]; rfl
  cases incident with
  | received network source bytes =>
      change Follows Eq node ((if node.isRunning = true then _ else pure () :
        NodeAction Unit).run.run node).2
      rw [if_neg (Bool.eq_false_iff.mp rests)]
      exact refl node
  | produced network timestamp =>
      change Follows Eq node ((if (node.producing && node.isRunning) = true then _ else pure () :
        NodeAction Unit).run.run node).2
      rw [rests, Bool.and_false, if_neg Bool.false_ne_true]
      exact refl node
  | interrupted => exact ⟨rfl, rfl, rfl, .refl _ _, rfl⟩

theorem follows_live (node : Node) (incidents : List Incident) :
    Follows Registry.Grows node (node.live incidents) := by
  induction incidents generalizing node with
  | nil => exact refl node
  | cons incident rest ih => exact IsTrans.trans _ _ _ (incident.leads node) (ih _)

theorem follows_live_of_deaf {node : Node} (deaf : node.gossipAddress = none)
    (incidents : List Incident) : Follows Eq node (node.live incidents) := by
  induction incidents generalizing node with
  | nil => exact refl node
  | cons incident rest ih =>
      have first := incident.of_deaf deaf
      exact IsTrans.trans _ _ _ first (ih (first.listening.trans deaf))

/-! ## Starting -/

/-- What a start finds around the node. -/
structure Launch where
  network : Network
  gossipPort : UInt16
  directoryPort : UInt16

/-- The node after it was started, whether or not that went well, or never started. -/
def launched (node : Node) : Option Launch → Node
  | some launch =>
    ((start launch.network launch.gossipPort launch.directoryPort).run.run node).2
  | none => node

section Starting

variable {node : Node} {launch : Launch}

/-- What a directory does once it listens. -/
def serve (node : Node) (launch : Launch) : NodeAction Unit := do
  attempt restorePeers
  if node.mode.gossips then followBlocks
  serveDirectory launch.network launch.directoryPort

/-- A directory that was not started before begins with listening. -/
theorem launched_eq (fresh : node.started = false) (directory : node.mode.servesDirectory = true) :
    node.launched (some launch) =
      ((do listen launch.network launch.gossipPort; serve node launch : NodeAction Unit).run.run
        { node with started := true }).2 := by
  change ((if node.started = true then _ else _ : NodeAction Unit).run.run node).2 = _
  rw [if_neg (Bool.eq_false_iff.mp fresh)]
  change ((do
    listen launch.network launch.gossipPort
    if node.mode.servesDirectory = true then _ else _ : NodeAction Unit).run.run _).2 = _
  rw [directory]
  rfl

/-- The node when it listens. -/
def listeningAt (node : Node) (address : SocketAddress) : Node :=
  { node with
    started := true
    gossipAddress := some address
    overlay := Overlay.start node.registry address.port }

/-- A node that cannot listen goes no further. -/
theorem launched_of_unbound {fault : Fault} (fresh : node.started = false)
    (directory : node.mode.servesDirectory = true)
    (unbound : launch.network.bind node.config.nodeEndpoint launch.gossipPort = .error fault) :
    node.launched (some launch) = { node with started := true } := by
  have fails : (listen launch.network launch.gossipPort).run.run { node with started := true } =
      (.error fault, { node with started := true }) := by
    change (ofExcept (launch.network.bind node.config.nodeEndpoint launch.gossipPort) >>=
      _ : NodeAction Unit).run.run _ = _
    rw [unbound]
    rfl
  rw [launched_eq fresh directory, Action.run_bind_error fails]

/-- What comes after the peers were taken over changes none of them. -/
theorem leads_serving (launch : Launch) (gossips : Bool) :
    Leads (Follows Eq) (do
      if gossips then followBlocks
      serveDirectory launch.network launch.directoryPort : NodeAction Unit) := by
  have joins : Leads (Follows Eq) followBlocks := by
    apply Leads.tryCatch
    · apply leads_onOverlay
      intro overlay
      rcases Overlay.topics_join overlay blocksTopic with ⟨topics, same⟩
      rw [same]
    · intro fault
      exact (leads_fail _).bind fun _ => leads_outcome _
  have serves : Leads (Follows Eq) (serveDirectory launch.network launch.directoryPort) := by
    refine Leads.get.bind fun seen => ?_
    refine (leads_outcome _).bind fun address => ?_
    exact .modify fun _ => ⟨rfl, rfl, rfl, .refl _ _, rfl⟩
  cases gossips with
  | false => exact serves
  | true => exact joins.bind fun _ => serves

/-- The node when it has taken over the peers of an earlier run. -/
def takeOver (node : Node) (registry : Registry) : Node :=
  { node with overlay := { node.overlay with registry } }

theorem run_restorePeers {count : Nat} {restored : Registry}
    (loads : node.registry.load.run node.engine = (.ok (count, restored), node.engine)) :
    restorePeers.run.run node = (.ok (), node.takeOver restored) := by
  have reads : (onStore node.registry.load).run.run node = (.ok (count, restored), node) := by
    change ((node.registry.load.run node.engine).1,
      { node with engine := (node.registry.load.run node.engine).2 }) = _
    rw [loads]
  have looks : (get : NodeAction Node).run.run node = (.ok node, node) := rfl
  rw [restorePeers, Action.run_bind looks]
  dsimp only
  rw [Action.run_bind reads]
  rfl

/-- A directory that listens knows whom it has read from its store. -/
theorem launched_of_bound {address : SocketAddress} {count : Nat} {restored : Registry}
    (fresh : node.started = false) (directory : node.mode.servesDirectory = true)
    (bound : launch.network.bind node.config.nodeEndpoint launch.gossipPort = .ok address)
    (loads : (node.listeningAt address).registry.load.run node.engine =
      (.ok (count, restored), node.engine)) :
    Follows Eq ((node.listeningAt address).takeOver restored) (node.launched (some launch)) := by
  let listening := node.listeningAt address
  have listens : (listen launch.network launch.gossipPort).run.run { node with started := true } =
      (.ok (), listening) := by
    change (ofExcept (launch.network.bind node.config.nodeEndpoint launch.gossipPort) >>=
      _ : NodeAction Unit).run.run _ = _
    rw [bound]
    rfl
  have reads : restorePeers.run.run listening = (.ok (), listening.takeOver restored) :=
    run_restorePeers loads
  have restores : (attempt restorePeers).run.run listening =
      (.ok (), listening.takeOver restored) := Action.run_tryCatch reads _
  rw [launched_eq fresh directory, Action.run_bind listens, serve, Action.run_bind restores]
  exact leads_serving launch _ _

end Starting

/-! ## Shutting down -/

/-- The node after it was shut down, or dropped. -/
def left (node : Node) : Node := (shutdown.run.run node).2

/-- Only the first shutdown does something. -/
theorem left_of_stopped {node : Node} (stopped : node.stopped = true) : node.left = node := by
  change ((if node.stopped = true then pure () else _ : NodeAction Unit).run.run node).2 = node
  rw [if_pos stopped]
  rfl

theorem run_attempt_onStore (action : StoreAction Value) (node : Node) :
    (attempt (do let _ ← onStore action)).run.run node =
      (.ok (), { node with engine := (action.run node.engine).2 }) := by
  have does : (onStore action).run.run node =
      ((action.run node.engine).1, { node with engine := (action.run node.engine).2 }) := rfl
  cases outcome : (action.run node.engine).1 with
  | ok value =>
      rw [outcome] at does
      exact Action.run_tryCatch (Action.run_bind does _) _
  | error fault =>
      rw [outcome] at does
      exact Action.run_tryCatch_error (Action.run_bind_error does _) _

/-- A directory saves its peers in place of all that was saved before. -/
theorem left_keeps {node : Node} {Old : Peer → Prop} {table : Table Peer}
    (running : node.stopped = false) (directory : node.mode.servesDirectory = true)
    (keeps : RecordStore.peers.Keeps Old table node.engine.contents)
    (isOpen : node.engine.isOpen = true) :
    node.left.stopped = true ∧ node.left.engine.path = node.engine.path ∧
      RecordStore.peers.Keeps (fun _ => True) node.registry.snapshot
        node.left.engine.contents := by
  rcases Registry.save_run keeps.known (fun _ _ => trivial : ∀ peer ∈ node.registry.all, True)
    isOpen with ⟨contents, saves, kept⟩
  have ends : node.left =
      { node with
        stopped := true
        signal := node.signal.give.2
        engine := { node.engine with contents, isOpen := false } } := by
    change ((if node.stopped = true then pure () else _ : NodeAction Unit).run.run node).2 = _
    rw [running]
    change ((if node.mode.servesDirectory = true then _ else _ : NodeAction Unit).run.run
      { node with stopped := true, signal := node.signal.give.2 }).2 = _
    rw [directory]
    change ((attempt (do let _ ← onStore node.registry.save) >>= _ : NodeAction Unit).run.run
      { node with stopped := true, signal := node.signal.give.2 }).2 = _
    rw [Action.run_bind (run_attempt_onStore _ _), saves]
    rfl
  rw [ends]
  exact ⟨rfl, rfl, kept⟩

/-! ## A whole life -/

/-- A node that has just been created. -/
structure Fresh (node : Node) : Prop where
  unstarted : node.started = false
  running : node.stopped = false
  deaf : node.gossipAddress = none
  nobody : node.registry = .ofOwn node.registry.own

theorem fresh_ofParts (config : Config) (mode : NodeMode) (identity : Identity)
    (engine : Engine) : (ofParts config mode identity engine).Fresh :=
  ⟨rfl, rfl, rfl, rfl⟩

/-- How a directory stands after its start, given what its store held. -/
structure Begun (table : Table Peer) (node begun : Node) : Prop where
  mode : begun.mode = node.mode
  stopped : begun.stopped = node.stopped
  store : RecordStore.peers.Same node.engine begun.engine
  id : begun.registry.id = node.registry.id
  proper : begun.registry.Proper
  deaf : begun.gossipAddress = none → begun.registry = node.registry
  listening : begun.gossipAddress ≠ none → begun.registry.Recalls table

theorem Fresh.begun_deaf {node : Node} (fresh : node.Fresh) (table : Table Peer)
    (started : Bool) : Begun table node { node with started } where
  mode := rfl
  stopped := rfl
  store := .refl _ _
  id := rfl
  proper := by
    change node.registry.Proper
    rw [fresh.nobody]
    exact Registry.proper_ofOwn _
  deaf _ := rfl
  listening listens := absurd fresh.deaf listens

/-- A start recalls what was saved, if the node comes to listen. -/
theorem Fresh.begun {node : Node} (fresh : node.Fresh)
    (directory : node.mode.servesDirectory = true) {earlier : Registry}
    (proper : earlier.Proper) (same : earlier.id = node.registry.id)
    (saved : RecordStore.peers.Keeps Peer.Fits earlier.snapshot node.engine.contents)
    (isOpen : node.engine.isOpen = true) (launch : Option Launch) :
    Begun earlier.snapshot node (node.launched launch) := by
  cases launch with
  | none => exact fresh.begun_deaf _ node.started
  | some launch =>
      cases bound : launch.network.bind node.config.nodeEndpoint launch.gossipPort with
      | error fault =>
          rw [launched_of_unbound fresh.unstarted directory bound]
          exact fresh.begun_deaf _ true
      | ok address =>
          -- a fresh node knows nobody when it listens, so what it loads is all it knows
          let own : Peer := { node.registry.own with port := address.port }
          have blank : (node.listeningAt address).registry = .ofOwn own := by
            change ({ node.registry with own := _ } : Registry) = _
            rw [fresh.nobody]
            rfl
          rcases Registry.load_run saved isOpen (node.listeningAt address).registry with
            ⟨entries, lists, loads⟩
          have follows := launched_of_bound fresh.unstarted directory bound loads
          have restored : (node.launched (some launch)).registry =
              ((Registry.ofOwn own).restore (entries.map (·.2))).2 := by
            rw [← follows.registry, ← blank]
            rfl
          have named : earlier.id = own.id := same
          refine ⟨follows.mode, follows.stopped, follows.store, ?_, ?_, ?_, ?_⟩
          · rw [restored, Registry.restore_snd, Registry.id_upsertAll]
            rfl
          · rw [restored]
            exact Registry.proper_restore (Registry.proper_ofOwn own) _
          · rw [follows.listening]
            exact fun deaf => absurd deaf (Option.some_ne_none address)
          · rw [restored]
            exact fun _ => Registry.recalls_restore proper named lists

/-- What a run leaves of the peers that an earlier run saved: the registry of its end
is what it saves. -/
structure Bequeaths (earlier last : Registry) (begun : Node) (incidents : List Incident)
    (contents : Contents) : Prop where
  proper : last.Proper
  id : last.id = earlier.id
  saved : RecordStore.peers.Keeps (fun _ => True) last.snapshot contents
  /-- Nothing is left if the node did not come to listen. -/
  lost : begun.gossipAddress = none → last.snapshot = Table.empty
  /-- Everything is left if it came to listen and nothing happened. -/
  kept : begun.gossipAddress ≠ none → incidents = [] →
    last.snapshot = fun key => (earlier.snapshot key).map Peer.disconnected
  /-- If it came to listen, it knows every peer at its end, wherever it is then, and
  leaves it unless another one has its key. -/
  known : begun.gossipAddress ≠ none → ∀ key peer, earlier.snapshot key = some peer →
    ∃ now ∈ last.all, now.id = peer.id ∧
      (last.Alone now → last.snapshot (StoreKey.peer now) = some now)

/-- A directory is created on a store that holds what an earlier run of the node
saved, and it is started or not, with or without success.  Things happen to it, and it
is shut down, or dropped, once or more often.  Then the peers of the earlier run have
outlived the run if it came to listen, and are gone otherwise. -/
theorem snapshot_outlives_listening {config : Config} {secret : Nat} {disk made : Disk}
    {node : Node} (created : (create config secret).run.run disk = (.ok node, made))
    (directory : node.mode.servesDirectory = true) {earlier : Registry}
    (proper : earlier.Proper) (same : earlier.id = node.id)
    (saved : RecordStore.peers.Keeps Peer.Fits earlier.snapshot
      (disk.contentsIn config.databaseFolder))
    (launch : Option Launch) (incidents : List Incident) (again : Nat) (rest : Disk) :
    let begun := node.launched launch
    let lived := begun.live incidents
    let ended := left^[again + 1] lived
    Bequeaths earlier lived.registry begun incidents
      ((rest.keep ended.engine).contentsIn config.databaseFolder) := by
  intro begun lived ended
  rcases of_create created with ⟨mode, identity, engine, rfl, stored⟩
  have held := saved.congr stored.part
  have fresh := fresh_ofParts config mode identity engine
  have starts : Begun earlier.snapshot _ begun :=
    fresh.begun directory proper same held stored.isOpen launch
  have follows : Follows Registry.Grows begun lived := follows_live begun incidents
  have store := starts.store.trans follows.store
  have running : lived.stopped = false :=
    follows.stopped.trans (starts.stopped.trans fresh.running)
  have serves : lived.mode.servesDirectory = true := by
    rw [follows.mode, starts.mode]
    exact directory
  rcases left_keeps running serves (held.congr store.part) (store.isOpen.trans stored.isOpen) with
    ⟨stopped, path, keeps⟩
  -- whoever is shut down again is stopped already
  have once : ended = lived.left := by
    change left^[again + 1] lived = _
    rw [Function.iterate_succ_apply, Function.iterate_fixed (left_of_stopped stopped)]
  have place : ended.engine.path = config.databaseFolder := by
    rw [once, path, store.path]
    exact stored.path
  constructor
  case proper => exact follows.registry.proper starts.proper
  case id => exact (follows.registry.id.trans starts.id).trans same.symm
  case saved =>
      rw [← place, Disk.contentsIn_keep, once]
      exact keeps
  case lost =>
      intro deaf
      rw [← (follows_live_of_deaf deaf incidents).registry, starts.deaf deaf]
      rfl
  case kept =>
      rintro listens rfl
      exact (starts.listening listens).snapshot_eq
  case known =>
      intro listens key peer found
      have recalled := (starts.listening listens).knows found
      rcases follows.registry.known peer.id recalled with ⟨now, here, named⟩
      have member := lived.registry.mem_all_iff.mpr ⟨peer.id, here⟩
      exact ⟨now, member, named, Registry.snapshot_of_alone member⟩

/-! ### A directory with one neighbour -/

def townConfig : Config :=
  { Config.default with node := { NodeSettings.default with mode := "dns", generates := false } }

def neighbour : Peer := .ofAddress "10.0.0.9" 45050 "peer-a" .node

/-- The town knows one neighbour. -/
def town : Registry :=
  ((Registry.ofOwn (.ofAddress "0.0.0.0" 45050 (Identity.ofSecret 1).id .dns)).upsert neighbour).2

/-- A disk on which the town has saved whom it knows. -/
def townDisk : Disk :=
  Disk.empty.keep (town.save.run (Engine.create townConfig.databaseFolder)).2

def townLaunch : Launch := ⟨.isolated, 45050, 8080⟩

theorem proper_town : town.Proper := (Registry.proper_ofOwn _).upsert neighbour

theorem snapshot_town : town.snapshot "10.0.0.9:peer-a" = some neighbour := by decide +kernel

theorem saved_town : RecordStore.peers.Keeps Peer.Fits town.snapshot
    (townDisk.contentsIn townConfig.databaseFolder) := by
  have nothing : RecordStore.peers.Keeps Peer.Fits Table.empty
      (Engine.create townConfig.databaseFolder).contents := .empty _ _
  have everybody : town.all = [neighbour] := by decide +kernel
  have fits : ∀ peer ∈ town.all, peer.Fits := by
    rw [everybody]
    exact List.forall_mem_singleton.mpr ⟨by decide, by decide⟩
  rcases Registry.save_run nothing.known fits rfl with ⟨contents, saves, keeps⟩
  rw [townDisk, saves]
  change RecordStore.peers.Keeps Peer.Fits _ ((Disk.empty.keep _).contentsIn
    ({ Engine.create townConfig.databaseFolder with contents } : Engine).path)
  rw [Disk.contentsIn_keep]
  exact keeps

/-- The town can be created on its disk and can listen.  If it is not started, it
leaves nobody. -/
theorem created_town : ∃ node made,
    (create townConfig 1).run.run townDisk = (.ok node, made) ∧
      node.mode.servesDirectory = true ∧ town.id = node.id ∧
      (node.launched (some townLaunch)).gossipAddress ≠ none ∧
      RecordStore.peers.entriesIn node.left.engine.contents = [] := by
  have sound : (match (create townConfig 1).run.run townDisk with
      | (.ok node, _) => decide (node.mode.servesDirectory = true ∧ town.id = node.id ∧
          (node.launched (some townLaunch)).gossipAddress ≠ none ∧
          RecordStore.peers.entriesIn node.left.engine.contents = [])
      | (.error _, _) => false) = true := by decide +kernel
  rcases made : (create townConfig 1).run.run townDisk with ⟨outcome, disk⟩
  rw [made] at sound
  cases outcome with
  | ok node => exact ⟨node, disk, rfl, of_decide_eq_true sound⟩
  | error fault => cases sound

/-- The neighbour outlives a run that listens. -/
theorem snapshot_outlives_listening_town : ∃ node made,
    (create townConfig 1).run.run townDisk = (.ok node, made) ∧
      node.mode.servesDirectory = true ∧ town.Proper ∧ town.id = node.id ∧
      RecordStore.peers.Keeps Peer.Fits town.snapshot
        (townDisk.contentsIn townConfig.databaseFolder) ∧
      ∃ table : Table Peer, table "10.0.0.9:peer-a" = some neighbour.disconnected ∧
        RecordStore.peers.Keeps (fun _ => True) table
          ((made.keep (node.launched (some townLaunch)).left.engine).contentsIn
            townConfig.databaseFolder) := by
  rcases created_town with ⟨node, made, created, directory, same, listens, -⟩
  refine ⟨node, made, created, directory, proper_town, same, saved_town, ?_⟩
  have bequeaths := snapshot_outlives_listening created directory proper_town same saved_town
    (some townLaunch) [] 0 made
  refine ⟨_, ?_, bequeaths.saved⟩
  rw [bequeaths.kept listens rfl]
  exact congrArg (Option.map Peer.disconnected) snapshot_town

/-- The town was never started, and the neighbour that it had saved is gone. -/
theorem unstarted_town_forgets : ∃ node made,
    (create townConfig 1).run.run townDisk = (.ok node, made) ∧
      node.mode.servesDirectory = true ∧ town.Proper ∧ town.id = node.id ∧
      RecordStore.peers.Keeps Peer.Fits town.snapshot
        (townDisk.contentsIn townConfig.databaseFolder) ∧
      town.snapshot "10.0.0.9:peer-a" = some neighbour ∧
      RecordStore.peers.entriesIn node.left.engine.contents = [] := by
  rcases created_town with ⟨node, made, created, directory, same, -, nobody⟩
  exact ⟨node, made, created, directory, proper_town, same, saved_town, snapshot_town, nobody⟩

end Node

end LedgerNode
