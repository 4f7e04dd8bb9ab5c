import Mathlib
import LedgerNode.Proofs.Ledger.History

namespace LedgerNode

/-!
# Where the stored blocks come from

A block is stored as it was brought: by a peer, or by the node itself.  Nobody
computes its hash again.  What is compared is one hash field with another, so
that a stored block names the hash that the block before it claims to have.

Whether the claim is true was decided when the block was made.  If every block
that was ever brought had the hash of its other fields, then every stored block
has, and names what was computed from the block before it.
-/

namespace Block

/-- The hash is the one that belongs to the other fields. -/
def Genuine (block : Block) : Prop := block.hash = block.computeHash

theorem genuine_genesis : genesis.Genuine := rfl

/-- Every hash that is computed begins with the letter of blocks. -/
theorem computeHash_front (block : Block) : block.computeHash.toList.head? = some 'B' := by
  unfold computeHash
  split
  · rfl
  · rw [RecordHash.tagged, String.toList_append]
    rfl

end Block

namespace Session

open Ledger

/-- The blocks that an event may bring to the ledger, with their transactions.
What arrives while the store is closed is not taken. -/
def Event.Brings : Event → WaitingBlock → Prop
  | .call (.locked action), parcel => action.Brings parcel
  | .call (.free _), _ => False
  | .restart _, _ => False

/-- A block was brought by one of the events. -/
def Brought (events : List Event) (parcel : WaitingBlock) : Prop :=
  ∃ event ∈ events, event.Brings parcel

theorem Brought.earlier {events : List Event} {parcel : WaitingBlock}
    (brought : Brought events parcel) (event : Event) : Brought (events ++ [event]) parcel := by
  rcases brought with ⟨source, member, brings⟩
  exact ⟨source, List.mem_append_left _ member, brings⟩

theorem brought_last {event : Event} {parcel : WaitingBlock} (events : List Event)
    (brings : event.Brings parcel) : Brought (events ++ [event]) parcel :=
  ⟨event, List.mem_append_right _ (List.mem_singleton_self _), brings⟩

/-- What waits beside a chain, and what stands on its genesis block, was
brought by the events. -/
structure Traced (events : List Event) (waiting : WaitingBlocks) (chain : List Block) :
    Prop where
  stored : ∃ parcels : List WaitingBlock, chain = Block.genesis :: parcels.map (·.block) ∧
    ∀ parcel ∈ parcels, Brought events parcel
  waiting : ∀ height parcel, waiting.get? height = some parcel → Brought events parcel

/-- What waited and what an event brings is all that the event can leave
waiting or store. -/
theorem Sound.step_traced {session : Session} {picture : Picture} {past : List Event}
    (sound : session.Sound picture) (standing : picture.chain ≠ [])
    (traced : Traced past session.waiting picture.chain) (event : Event) :
    ∃ after, (session.step event).Sound after ∧ picture.chain <+: after.chain ∧
      Traced (past ++ [event]) (session.step event).waiting after.chain := by
  rcases traced.stored with ⟨parcels, made, sources⟩
  have before : ∀ parcel ∈ parcels, Brought (past ++ [event]) parcel :=
    fun parcel member => (sources parcel member).earlier event
  have waited : ∀ height parcel, session.waiting.get? height = some parcel →
      Brought (past ++ [event]) parcel :=
    fun height parcel waits => (traced.waiting height parcel waits).earlier event
  cases event with
  | call call =>
      cases call with
      | locked call =>
          rcases sound.perform_locked call with ⟨_, after, next, performed, grown, _⟩
          refine ⟨after, next, grown, ?_, ?_⟩
          · rcases performed.extendedBy sound.settled standing with ⟨more, extended, origin⟩
            refine ⟨parcels ++ more, ?_, List.forall_mem_append.mpr ⟨before, ?_⟩⟩
            · rw [extended.chain, made, List.map_append, List.cons_append]
            · intro parcel member
              rcases origin parcel member with brings | ⟨height, waits⟩
              · exact brought_last past brings
              · exact waited height parcel waits
          · intro height parcel waits
            rcases performed.waited_or_brought waits with still | brings
            · exact waited height parcel still
            · exact brought_last past brings
      | free call =>
          rcases sound.perform_free call with ⟨next, waiting, _⟩
          refine ⟨picture, next, List.prefix_refl _, ⟨parcels, made, before⟩, ?_⟩
          intro height parcel waits
          exact waited height parcel (waiting ▸ waits)
  | restart meanwhile =>
      rw [step_restart sound.isOpen]
      refine ⟨picture, sound.unattended, List.prefix_refl _, ⟨parcels, made, before⟩, ?_⟩
      intro height parcel waits
      cases waits

/-- After every history, each block above genesis is stored as an event brought
it, whatever its hash, and names the hash field of the block before it.  If all
hashes were genuine when they were brought, the stored ones are, and each block
commits to the fields of the block before it. -/
theorem stored_as_brought (path : String) (events : List Event) :
    ∃ blocks, ((start path).run events).Stores blocks ∧ blocks[0]? = some Block.genesis ∧
      (∀ height (inside : height + 1 < blocks.length),
        (∃ parcel, Brought events parcel ∧ parcel.block = blocks[height + 1]) ∧
          blocks[height + 1].previousHash = blocks[height].hash) ∧
      ((∀ parcel, Brought events parcel → parcel.block.Genuine) →
        ∀ height (inside : height + 1 < blocks.length), blocks[height + 1].Genuine ∧
          blocks[height + 1].previousHash = blocks[height].computeHash) := by
  have begins : ∀ picture : Picture, picture.chain = [Block.genesis] →
      Traced [] ((start path).run []).waiting picture.chain := by
    intro picture genesis
    refine ⟨⟨[], genesis, List.forall_mem_nil _⟩, ?_⟩
    intro height parcel waits
    cases waits
  have next : ∀ {past : List Event} {picture : Picture} (event : Event),
      ((start path).run past).Sound picture → picture.chain ≠ [] →
      Traced past ((start path).run past).waiting picture.chain →
      ∃ after, ((start path).run (past ++ [event])).Sound after ∧
        picture.chain <+: after.chain ∧
        Traced (past ++ [event]) ((start path).run (past ++ [event])).waiting after.chain := by
    intro past picture event sound standing traced
    rw [run_append]
    exact sound.step_traced standing traced event
  rcases run_start_keeps path begins next events with ⟨picture, tip, sound, last, traced⟩
  rcases traced.stored with ⟨parcels, made, sources⟩
  have brought : ∀ height (inside : height + 1 < picture.chain.length),
      ∃ parcel, Brought events parcel ∧ parcel.block = picture.chain[height + 1] := by
    intro height inside
    have within : height < parcels.length := by
      rw [made, List.length_cons, List.length_map] at inside
      exact Nat.lt_of_succ_lt_succ inside
    refine ⟨parcels[height], sources _ (List.getElem_mem within), ?_⟩
    simp only [made, List.getElem_cons_succ, List.getElem_map]
  have links : ∀ height (inside : height + 1 < picture.chain.length),
      picture.chain[height + 1].previousHash = picture.chain[height].hash :=
    fun height inside => picture.linked.previousHash_eq _ inside
  have first : picture.chain[0]? = some Block.genesis := by rw [made, List.getElem?_cons_zero]
  refine ⟨picture.chain, sound.stores, first, ?_, ?_⟩
  · exact fun height inside => ⟨brought height inside, links height inside⟩
  · intro honest
    have genuine : ∀ height (inside : height < picture.chain.length),
        picture.chain[height].Genuine := by
      intro height inside
      cases height with
      | zero =>
          rw [List.getElem?_eq_getElem inside] at first
          rw [Option.some.inj first]
          exact Block.genuine_genesis
      | succ height =>
          rcases brought height inside with ⟨parcel, source, same⟩
          exact same ▸ honest parcel source
    intro height inside
    refine ⟨genuine (height + 1) inside, ?_⟩
    rw [links height inside]
    exact genuine height (Nat.lt_of_succ_lt inside)

/-- The hash of a peer's block may be any word. -/
theorem forged_block_stored :
    let forged := sampleParcel 1 "forged" Block.genesisHash
    let session := (start "ledger").run
      [.call (.locked (.accept forged (sampleParcel_fits (by decide) (by decide))))]
    ((Ledger.block 1).run session.engine).1 = .ok forged.block ∧ ¬ forged.block.Genuine := by
  refine ⟨?_, ?_⟩
  · cbv
  · intro genuine
    have front := Block.computeHash_front (sampleParcel 1 "forged" Block.genesisHash).block
    rw [← genuine] at front
    cases front

end Session

end LedgerNode
