import LedgerNode.Peer.Directory
import LedgerNode.Proofs.Peer.Restoration

namespace LedgerNode

/-!
# A directory answers from the latest news

A registry hears records of peers, whether somebody is connected, and whole stores of
records.  What it then knows of a peer is the last record of that peer, with the
connection that was noted last since then, and only the news that concern this peer
count.  So the answers of a directory are determined by the latest news of each peer,
and news that concern different peers may come in any order.

A directory lists peers by their ids, which are different from each other.  Where
several peers could answer, the one with the least id does, so that no answer depends
on how the registry came about.
-/

namespace Registry

/-! ## News -/

/-- What a registry can hear: a record of a peer, or whether somebody is connected. -/
inductive News where
  | record (peer : Peer)
  | connection (id : String) (connected : Bool)
deriving DecidableEq

/-- Whom the news concern. -/
def News.id : News → String
  | record peer => peer.id
  | connection id _ => id

/-- The news that concern one peer, in their order. -/
def News.about (id : String) (news : List News) : List News := news.filter (·.id == id)

theorem News.about_cons (id : String) (head : News) (rest : List News) :
    about id (head :: rest) = if head.id = id then head :: about id rest else about id rest := by
  rw [about, List.filter_cons]
  exact if_congr beq_iff_eq rfl rfl

/-- Neighbours that concern different peers may change places. -/
theorem News.about_swap {first second : News} (different : first.id ≠ second.id) (id : String)
    (rest : List News) :
    about id (first :: second :: rest) = about id (second :: first :: rest) := by
  rw [about_cons, about_cons, about_cons, about_cons]
  by_cases here : first.id = id
  · have elsewhere : second.id ≠ id := fun there => different (here.trans there.symm)
    simp only [if_pos here, if_neg elsewhere]
  · simp only [if_neg here]

def hear (registry : Registry) : News → Registry
  | .record peer => (registry.upsert peer).2
  | .connection id connected => registry.setConnected id connected

def hearAll (registry : Registry) (news : List News) : Registry := news.foldl hear registry

/-- The calls that change whom a registry knows. -/
inductive Call where
  | hear (news : News)
  | load (engine : Engine)

/-- The registry after a call.  A store that cannot be read changes nothing. -/
def perform (registry : Registry) : Call → Registry
  | .hear news => registry.hear news
  | .load engine =>
    match (registry.load.run engine).1 with
    | .ok (_, loaded) => loaded
    | .error _ => registry

/-- The news that a call brings.  A store brings its records, with nobody connected. -/
def Call.news : Call → List News
  | .hear news => [news]
  | .load engine =>
    match (RecordStore.peers.values.run engine).1 with
    | .ok peers => peers.map fun peer => .record peer.disconnected
    | .error _ => []

theorem perform_eq (registry : Registry) (call : Call) :
    registry.perform call = registry.hearAll call.news := by
  cases call with
  | hear news => rfl
  | load engine =>
      rw [perform, load, StoreAction.run_bind_return, Call.news]
      cases (RecordStore.peers.values.run engine).1 with
      | error fault => rfl
      | ok peers =>
          change (registry.restore peers).2 = _
          rw [restore_snd, upsertAll, hearAll, List.foldl_map, List.foldl_map]
          rfl

/-- The registry of a node after these calls. -/
def ofCalls (own : Peer) (calls : List Call) : Registry := calls.foldl perform (ofOwn own)

theorem ofCalls_eq (own : Peer) (calls : List Call) :
    ofCalls own calls = (ofOwn own).hearAll (calls.flatMap Call.news) := by
  rw [ofCalls, hearAll, List.foldl_flatMap]
  congr 1
  funext registry call
  exact perform_eq registry call

variable {registry : Registry}

theorem own_hear (registry : Registry) (news : News) : (registry.hear news).own = registry.own := by
  cases news with
  | record peer => exact registry.own_upsert peer
  | connection id connected => rfl

theorem own_hearAll (registry : Registry) (news : List News) :
    (registry.hearAll news).own = registry.own := by
  induction news generalizing registry with
  | nil => rfl
  | cons first rest ih => exact (ih _).trans (registry.own_hear first)

theorem Proper.hearAll (proper : registry.Proper) (news : List News) :
    (registry.hearAll news).Proper := by
  induction news generalizing registry with
  | nil => exact proper
  | cons first rest ih =>
      cases first with
      | record peer => exact ih (proper.upsert peer)
      | connection id connected => exact ih (proper.setConnected id connected)

/-! ## Only the news of a peer count for it -/

theorem get?_hear_of_ne {news : News} {id : String} (other : news.id ≠ id) :
    (registry.hear news).get? id = registry.get? id := by
  cases news with
  | record peer => exact (registry.get?_upsert peer id).trans (if_neg fun both => other both.1)
  | connection some connected =>
      exact (registry.get?_setConnected some id connected).trans (if_neg (Ne.symm other))

/-- Registries of one node that agree on a peer still do so after the same news. -/
theorem get?_hear_congr {first second : Registry} {id : String} (own : first.id = second.id)
    (agree : first.get? id = second.get? id) (news : News) :
    (first.hear news).get? id = (second.hear news).get? id := by
  cases news with
  | record peer => rw [hear, hear, get?_upsert, get?_upsert, own, agree]
  | connection some connected =>
      rw [hear, hear, get?_setConnected, get?_setConnected, agree]
      split
      next same => rw [← same, agree]
      next => rfl

theorem get?_hearAll_about {first second : Registry} {id : String} (own : first.id = second.id)
    (agree : first.get? id = second.get? id) (news : List News) :
    (first.hearAll news).get? id =
      (second.hearAll (News.about id news)).get? id := by
  induction news generalizing first second with
  | nil => exact agree
  | cons head rest ih =>
      have kept (registry : Registry) : (registry.hear head).id = registry.id :=
        congrArg Peer.id (registry.own_hear head)
      rw [News.about_cons]
      split
      next =>
        exact ih (by rw [kept, kept, own]) (get?_hear_congr own agree head)
      next concerns =>
        exact ih ((kept first).trans own) ((get?_hear_of_ne concerns).trans agree)

/-- A registry is determined by its own peer and by what it answers. -/
theorem eq_of_get? {first second : Registry} (own : first.own = second.own)
    (answers : ∀ id, first.get? id = second.get? id) : first = second := by
  cases first
  cases second
  cases own
  exact congrArg (Registry.mk _) (OrderedMap.ext_get? answers)

/-- News that agree for every single peer make the same registry. -/
theorem hearAll_congr {first second : List News}
    (agree : ∀ id, News.about id first = News.about id second) (registry : Registry) :
    registry.hearAll first = registry.hearAll second := by
  apply eq_of_get?
  · exact (registry.own_hearAll first).trans (registry.own_hearAll second).symm
  · intro id
    calc (registry.hearAll first).get? id
        = (registry.hearAll (News.about id first)).get? id := get?_hearAll_about rfl rfl first
      _ = (registry.hearAll (News.about id second)).get? id := by rw [agree]
      _ = (registry.hearAll second).get? id := (get?_hearAll_about rfl rfl second).symm

/-! ## The latest news -/

/-- Whether the news note somebody as connected, the last time that they tell. -/
def lastConnection (id : String) (news : List News) : Option Bool :=
  (news.filterMap fun
    | .record _ => none
    | .connection other connected => if other = id then some connected else none).getLast?

/-- The peer is somebody else, as the last record of it says; but whether it is connected
is what was noted last since then. -/
def Latest (own : String) (news : List News) (peer : Peer) : Prop :=
  ∃ before record after, news = before ++ .record record :: after ∧ record.id ≠ own ∧
    (∀ later, .record later ∈ after → later.id ≠ record.id) ∧
    peer = { record with connected := (lastConnection record.id after).getD record.connected }

theorem Latest.id_ne {own : String} {news : List News} {peer : Peer}
    (latest : Latest own news peer) : peer.id ≠ own := by
  rcases latest with ⟨before, record, after, -, foreign, -, rfl⟩
  exact foreign

/-- An item of a longer list is the last one, or it was there before. -/
theorem cases_of_append_cons {before after all : List News} {middle last : News}
    (whole : all ++ [last] = before ++ middle :: after) :
    (after = [] ∧ before = all ∧ middle = last) ∨
      ∃ between, after = between ++ [last] ∧ before ++ middle :: between = all := by
  rcases List.eq_nil_or_concat after with rfl | ⟨between, final, rfl⟩
  · rcases List.append_inj' whole rfl with ⟨rfl, same⟩
    exact .inl ⟨rfl, rfl, (List.singleton_inj.mp same).symm⟩
  · rw [List.concat_eq_append, ← List.cons_append, ← List.append_assoc] at whole
    rcases List.append_inj' whole rfl with ⟨same, ends⟩
    rw [List.concat_eq_append, List.singleton_inj.mp ends]
    exact .inr ⟨between, rfl, same.symm⟩

theorem lastConnection_concat (id : String) (news : List News) (last : News) :
    lastConnection id (news ++ [last]) =
      match last with
      | .record _ => lastConnection id news
      | .connection other connected =>
        if other = id then some connected else lastConnection id news := by
  rw [lastConnection, List.filterMap_append]
  cases last with
  | record peer => simp [lastConnection]
  | connection other connected =>
      by_cases same : other = id
      · simp [same]
      · simp [same, lastConnection]

theorem latest_record_iff {own : String} {news : List News} {head peer : Peer} :
    Latest own (news ++ [.record head]) peer ↔
      (peer = head ∧ head.id ≠ own) ∨ (Latest own news peer ∧ peer.id ≠ head.id) := by
  constructor
  · rintro ⟨before, record, after, whole, foreign, last, rfl⟩
    rcases cases_of_append_cons whole with ⟨rfl, rfl, same⟩ | ⟨between, rfl, rfl⟩
    · cases same
      exact .inl ⟨rfl, foreign⟩
    · have other := last head List.mem_concat_self
      refine .inr ⟨⟨before, record, between, rfl, foreign, ?_, ?_⟩, other.symm⟩
      · exact fun later member => last later (List.mem_append_left _ member)
      · rw [lastConnection_concat]
  · rintro (⟨rfl, foreign⟩ | ⟨⟨before, record, after, rfl, foreign, last, rfl⟩, other⟩)
    · exact ⟨news, peer, [], rfl, foreign, nofun, rfl⟩
    · refine ⟨before, record, after ++ [.record head], by simp, foreign, ?_, ?_⟩
      · intro later member
        rcases List.mem_append.mp member with inside | same
        · exact last later inside
        · cases List.mem_singleton.mp same
          exact other.symm
      · rw [lastConnection_concat]

theorem latest_connection_iff {own id : String} {connected : Bool} {news : List News}
    {peer : Peer} :
    Latest own (news ++ [.connection id connected]) peer ↔
      ∃ known, Latest own news known ∧
        peer = if id = known.id then { known with connected } else known := by
  constructor
  · rintro ⟨before, record, after, whole, foreign, last, rfl⟩
    rcases cases_of_append_cons whole with ⟨-, -, same⟩ | ⟨between, rfl, rfl⟩
    · cases same
    · refine ⟨_, ⟨before, record, between, rfl, foreign, ?_, rfl⟩, ?_⟩
      · exact fun later member => last later (List.mem_append_left _ member)
      · rw [lastConnection_concat]
        dsimp only
        split <;> rfl
  · rintro ⟨known, ⟨before, record, after, rfl, foreign, last, rfl⟩, rfl⟩
    refine ⟨before, record, after ++ [.connection id connected], by simp, foreign, ?_, ?_⟩
    · intro later member
      rcases List.mem_append.mp member with inside | same
      · exact last later inside
      · cases List.mem_singleton.mp same
    · rw [lastConnection_concat]
      dsimp only
      split <;> rfl

/-- What a registry knows is the latest of what it heard. -/
theorem get?_hearAll_iff {own : Peer} {news : List News} {id : String} {peer : Peer} :
    ((ofOwn own).hearAll news).get? id = some peer ↔ Latest own.id news peer ∧ peer.id = id := by
  induction news using List.reverseRecOn generalizing id peer with
  | nil =>
      refine ⟨nofun, ?_⟩
      rintro ⟨⟨before, record, after, whole, -⟩, -⟩
      simp at whole
  | append_singleton news last ih =>
      have stands : (ofOwn own).hearAll (news ++ [last]) =
          ((ofOwn own).hearAll news).hear last := by
        rw [hearAll, List.foldl_append]
        rfl
      have self : ((ofOwn own).hearAll news).id = own.id :=
        congrArg Peer.id ((ofOwn own).own_hearAll news)
      rw [stands]
      cases last with
      | record head =>
          rw [hear, get?_upsert, self, latest_record_iff]
          split
          next here =>
              rcases here with ⟨rfl, foreign⟩
              rw [Option.some.injEq]
              constructor
              · rintro rfl
                exact ⟨.inl ⟨rfl, foreign⟩, rfl⟩
              · rintro ⟨⟨rfl, -⟩ | ⟨-, other⟩, same⟩
                · rfl
                · exact absurd same other
          next elsewhere =>
              rw [ih]
              constructor
              · rintro ⟨latest, rfl⟩
                exact ⟨.inr ⟨latest, fun same => elsewhere ⟨same.symm, same ▸ latest.id_ne⟩⟩, rfl⟩
              · rintro ⟨⟨rfl, foreign⟩ | ⟨latest, -⟩, same⟩
                · exact absurd ⟨same, foreign⟩ elsewhere
                · exact ⟨latest, same⟩
      | connection other connected =>
          rw [hear, get?_setConnected, latest_connection_iff]
          split
          next here =>
              rw [Option.map_eq_some_iff]
              constructor
              · rintro ⟨known, found, rfl⟩
                rcases ih.mp found with ⟨latest, same⟩
                exact ⟨⟨known, latest, (if_pos same.symm).symm⟩, same.trans here.symm⟩
              · rintro ⟨⟨known, latest, rfl⟩, same⟩
                rw [apply_ite Peer.id, ite_self] at same
                refine ⟨known, ih.mpr ⟨latest, same.trans here⟩, ?_⟩
                exact (if_pos (same.trans here).symm).symm
          next elsewhere =>
              rw [ih]
              constructor
              · rintro ⟨latest, rfl⟩
                exact ⟨⟨peer, latest, (if_neg (Ne.symm elsewhere)).symm⟩, rfl⟩
              · rintro ⟨⟨known, latest, rfl⟩, same⟩
                rw [apply_ite Peer.id, ite_self] at same
                rw [if_neg fun here => elsewhere (same.symm.trans here.symm)]
                exact ⟨latest, same⟩

theorem exists_latest_iff {own id : String} {news : List News} :
    (∃ peer, Latest own news peer ∧ peer.id = id) ↔
      id ≠ own ∧ ∃ peer, .record peer ∈ news ∧ peer.id = id := by
  constructor
  · rintro ⟨_, ⟨before, record, after, rfl, foreign, -, rfl⟩, rfl⟩
    exact ⟨foreign, record, List.mem_append_right _ List.mem_cons_self, rfl⟩
  · rintro ⟨foreign, peer, member, rfl⟩
    induction news using List.reverseRecOn with
    | nil => cases member
    | append_singleton news last ih =>
        rcases List.mem_append.mp member with inside | same
        · rcases ih inside with ⟨known, latest, same⟩
          cases last with
          | record head =>
              by_cases here : peer.id = head.id
              · exact ⟨head, latest_record_iff.mpr (.inl ⟨rfl, here ▸ foreign⟩), here.symm⟩
              · have other : known.id ≠ head.id := same ▸ here
                exact ⟨known, latest_record_iff.mpr (.inr ⟨latest, other⟩), same⟩
          | connection other connected =>
              refine ⟨_, latest_connection_iff.mpr ⟨known, latest, rfl⟩, ?_⟩
              rw [apply_ite Peer.id, ite_self, same]
        · cases List.mem_singleton.mp same
          exact ⟨peer, latest_record_iff.mpr (.inl ⟨rfl, foreign⟩), rfl⟩

theorem mem_all_hearAll_iff {own : Peer} {news : List News} {peer : Peer} :
    peer ∈ ((ofOwn own).hearAll news).all ↔ Latest own.id news peer := by
  rw [Keyed.mem_all_iff ((proper_ofOwn own).hearAll news).keyed, get?_hearAll_iff]
  exact and_iff_left rfl

/-! ## The order of the peers -/

/-- Of a list of peers, each has a greater id than the one before it. -/
def Increasing (peers : List Peer) : Prop :=
  peers.Pairwise fun earlier later => earlier.id < later.id

theorem Keyed.increasing_all (keyed : registry.Keyed) : Increasing registry.all := by
  rw [Increasing, all, OrderedMap.values, List.pairwise_map]
  refine registry.peers.increasing.imp_of_mem ?_
  rintro ⟨_, earlier⟩ ⟨_, later⟩ first second less
  cases keyed _ earlier (OrderedMap.mem_entries_iff.mp first)
  cases keyed _ later (OrderedMap.mem_entries_iff.mp second)
  exact compareOfLessAndEq_eq_lt.mp less

theorem Increasing.head?_eq_some_iff {peers : List Peer} (increasing : Increasing peers)
    {peer : Peer} :
    peers.head? = some peer ↔ peer ∈ peers ∧ ∀ other ∈ peers, peer.id ≤ other.id := by
  cases peers with
  | nil => simp
  | cons first rest =>
      rcases List.pairwise_cons.mp increasing with ⟨least, -⟩
      rw [List.head?_cons, Option.some.injEq]
      constructor
      · rintro rfl
        refine ⟨List.mem_cons_self, List.forall_mem_cons.mpr ⟨String.le_refl _, ?_⟩⟩
        intro other member
        apply String.not_lt.mp
        exact fun greater => String.lt_irrefl _ (String.lt_trans (least other member) greater)
      · rintro ⟨member, below⟩
        rcases List.mem_cons.mp member with rfl | behind
        · rfl
        · exact absurd (least peer behind) (String.not_lt.mpr (below first List.mem_cons_self))

end Registry

namespace Directory

variable {registry : Registry}

/-- The peer is found under a text, with or without its port. -/
def At (text : String) (peer : Peer) : Prop := peer.address = text ∨ peer.endpoint = text

theorem isAt_iff {text : String} {peer : Peer} : Registry.isAt text peer = true ↔ At text peer := by
  rw [Registry.isAt, Bool.or_eq_true, beq_iff_eq, beq_iff_eq, At]

theorem mem_findAt_iff {text : String} {peer : Peer} :
    peer ∈ registry.findAt text ↔ peer ∈ registry.all ∧ At text peer := by
  rw [Registry.findAt, List.mem_filter, isAt_iff]

theorem mem_withModes_iff {modes : List NodeMode} {peer : Peer} :
    peer ∈ registry.withModes modes ↔ peer ∈ registry.all ∧ peer.mode ∈ modes := by
  rw [Registry.withModes, List.mem_filter, List.contains_iff_mem]

theorem answer_resolve_of_own {text : String} (here : At text registry.own) :
    answer registry (.resolve text) = .peer registry.own := by
  rw [answer, resolve, if_pos (isAt_iff.mpr here)]

theorem answer_resolve_of_other {text : String} (elsewhere : ¬ At text registry.own) :
    answer registry (.resolve text) =
      ((registry.findAt text).head?.map .peer).getD (.notFound text) := by
  rw [answer, resolve, if_neg (mt isAt_iff.mp elsewhere)]
  cases (registry.findAt text).head? <;> rfl

/-- Of those who are found under a text, the directory answers with the first one. -/
theorem answer_resolve_eq_peer_iff (increasing : Registry.Increasing registry.all) {text : String}
    (elsewhere : ¬ At text registry.own) {peer : Peer} :
    answer registry (.resolve text) = .peer peer ↔
      peer ∈ registry.all ∧ At text peer ∧
        ∀ other ∈ registry.all, At text other → peer.id ≤ other.id := by
  have first : (registry.findAt text).head? = some peer ↔
      peer ∈ registry.all ∧ At text peer ∧
        ∀ other ∈ registry.all, At text other → peer.id ≤ other.id := by
    have found : Registry.Increasing (registry.findAt text) := increasing.filter _
    rw [found.head?_eq_some_iff, mem_findAt_iff, and_assoc]
    refine and_congr_right fun _ => and_congr_right fun _ => forall_congr' fun other => ?_
    rw [mem_findAt_iff, and_imp]
  rw [answer_resolve_of_other elsewhere, ← first]
  cases (registry.findAt text).head? with
  | none => exact ⟨nofun, nofun⟩
  | some found =>
      rw [Option.map_some, Option.getD_some, DirectoryResponse.peer.injEq, Option.some.injEq]

theorem answer_resolve_eq_notFound_iff {text : String} :
    answer registry (.resolve text) = .notFound text ↔
      ¬ At text registry.own ∧ ∀ peer ∈ registry.all, ¬ At text peer := by
  by_cases here : At text registry.own
  · rw [answer_resolve_of_own here]
    exact ⟨nofun, fun nobody => absurd here nobody.1⟩
  · have nobody : (registry.findAt text).head? = none ↔ ∀ peer ∈ registry.all, ¬ At text peer := by
      rw [List.head?_eq_none_iff, List.eq_nil_iff_forall_not_mem]
      refine forall_congr' fun peer => ?_
      rw [mem_findAt_iff, not_and]
    rw [answer_resolve_of_other here, ← nobody, and_iff_right here]
    cases (registry.findAt text).head? with
    | none => exact ⟨fun _ => rfl, fun _ => rfl⟩
    | some found => exact ⟨nofun, nofun⟩

theorem answer_resolve_cases (registry : Registry) (text : String) :
    answer registry (.resolve text) = .notFound text ∨
      ∃ peer, answer registry (.resolve text) = .peer peer := by
  rw [answer]
  cases resolve registry text with
  | none => exact .inl rfl
  | some peer => exact .inr ⟨peer, rfl⟩

/-- The registry of this node answers from the latest of what it heard. -/
structure Reflects (registry : Registry) (own : Peer) (news : List Registry.News) : Prop where
  self : answer registry .self = .peer own
  known : ∀ peer, peer ∈ registry.all ↔ Registry.Latest own.id news peer
  ids : ∀ id, (∃ peer ∈ registry.all, peer.id = id) ↔
    id ≠ own.id ∧ ∃ record, .record record ∈ news ∧ record.id = id
  increasing : Registry.Increasing registry.all
  seeds : ∃ peers, answer registry .seeds = .peers peers ∧ Registry.Increasing peers ∧
    ∀ peer, peer ∈ peers ↔ peer ∈ registry.all ∧ (peer.mode = .seed ∨ peer.mode = .supernode)
  nodes : ∃ peers, answer registry .nodes = .peers peers ∧ Registry.Increasing peers ∧
    ∀ peer, peer ∈ peers ↔ peer ∈ registry.all ∧ peer.mode = .node
  resolveOwn : ∀ text, At text own → answer registry (.resolve text) = .peer own
  resolveOther : ∀ text, ¬ At text own → ∀ peer,
    answer registry (.resolve text) = .peer peer ↔
      peer ∈ registry.all ∧ At text peer ∧
        ∀ other ∈ registry.all, At text other → peer.id ≤ other.id
  notFound : ∀ text, answer registry (.resolve text) = .notFound text ↔
    ¬ At text own ∧ ∀ peer ∈ registry.all, ¬ At text peer
  resolved : ∀ text, answer registry (.resolve text) = .notFound text ∨
    ∃ peer, answer registry (.resolve text) = .peer peer

theorem reflects_hearAll (own : Peer) (news : List Registry.News) :
    Reflects ((Registry.ofOwn own).hearAll news) own news := by
  have same : ((Registry.ofOwn own).hearAll news).own = own := Registry.own_hearAll _ news
  have increasing := Registry.Keyed.increasing_all
    ((Registry.proper_ofOwn own).hearAll news).keyed
  refine ⟨?self, ?known, ?ids, increasing, ?seeds, ?nodes, ?own, ?other, ?notFound, ?resolved⟩
  case self => exact congrArg DirectoryResponse.peer same
  case known => exact fun peer => Registry.mem_all_hearAll_iff
  case ids =>
    intro id
    rw [← Registry.exists_latest_iff]
    exact exists_congr fun peer => and_congr_left' Registry.mem_all_hearAll_iff
  case seeds =>
    refine ⟨_, rfl, increasing.filter _, fun peer => ?_⟩
    rw [seeds, mem_withModes_iff, List.mem_pair]
  case nodes =>
    refine ⟨_, rfl, increasing.filter _, fun peer => ?_⟩
    rw [nodes, mem_withModes_iff, List.mem_singleton]
  case own =>
    intro text here
    rw [← same] at here
    rw [answer_resolve_of_own here, same]
  case other =>
    intro text elsewhere peer
    rw [← same] at elsewhere
    exact answer_resolve_eq_peer_iff increasing elsewhere
  case notFound =>
    intro text
    rw [answer_resolve_eq_notFound_iff, same]
  case resolved => exact answer_resolve_cases _

/-- Whatever calls were made, a directory answers from the latest news of each peer.  News
that differ in the order of those that concern different peers give the same answers. -/
theorem answers_latest_news (own : Peer) :
    (∀ calls : List Registry.Call,
      Reflects (.ofCalls own calls) own (calls.flatMap Registry.Call.news)) ∧
    ∀ first second : List Registry.News,
      (∀ id, Registry.News.about id first = Registry.News.about id second) →
      ∀ query, answer (.ofCalls own (first.map .hear)) query =
        answer (.ofCalls own (second.map .hear)) query := by
  constructor
  · intro calls
    rw [Registry.ofCalls_eq]
    exact reflects_hearAll own _
  · intro first second agree query
    have heard (news : List Registry.News) : (news.map Registry.Call.hear).flatMap
        Registry.Call.news = news := by
      rw [List.flatMap_map]
      exact List.flatMap_singleton' news
    rw [Registry.ofCalls_eq, Registry.ofCalls_eq, heard, heard, Registry.hearAll_congr agree]

/-- A node behind the address that all nodes of a house share. -/
def housemate (id : String) (mode : NodeMode) : Peer :=
  ⟨"10.0.0.2", 45050, id, mode, false, .unknown⟩

theorem answers_latest_news_house :
    Reflects (.ofCalls (housemate "self" .node) [.load ⟨"peers", ∅, true⟩,
      .hear (.record (housemate "b" .seed))]) (housemate "self" .node)
        [.record (housemate "b" .seed)] ∧
    ∃ registry : Registry,
      registry = .ofCalls (housemate "self" .node) [.hear (.record (housemate "b" .seed)),
        .hear (.record (housemate "a" .dns)), .hear (.connection "b" true)] ∧
      (∀ query, answer registry query =
        answer (.ofCalls (housemate "self" .node) [.hear (.record (housemate "a" .dns)),
          .hear (.record (housemate "b" .seed)), .hear (.connection "b" true)]) query) ∧
      answer registry .seeds = .peers [{ housemate "b" .seed with connected := true }] ∧
      answer registry (.resolve "10.0.0.2") = .peer (housemate "self" .node) := by
  rcases answers_latest_news (housemate "self" .node) with ⟨reflects, orders⟩
  have different : (Registry.News.record (housemate "b" .seed)).id ≠
      (Registry.News.record (housemate "a" .dns)).id := by decide
  refine ⟨reflects [.load ⟨"peers", ∅, true⟩, .hear (.record (housemate "b" .seed))],
    _, rfl, ?_, by decide, by decide⟩
  exact orders [.record (housemate "b" .seed), .record (housemate "a" .dns), .connection "b" true]
    [.record (housemate "a" .dns), .record (housemate "b" .seed), .connection "b" true]
    fun id => Registry.News.about_swap different id _

end Directory

end LedgerNode
