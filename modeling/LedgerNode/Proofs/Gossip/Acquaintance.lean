import LedgerNode.Proofs.Action
import LedgerNode.Proofs.Gossip.Run
import LedgerNode.Proofs.Peer.Snapshot

namespace LedgerNode

/-!
# Nobody is forgotten

Whatever a node receives or sends, it goes on knowing whom it knew.  A peer may be
found elsewhere afterwards, or count as disconnected, but its id stays.
-/

instance : IsPreorder Registry Registry.Grows where
  refl := .refl
  trans _ _ _ first second := first.trans second

namespace Overlay

/-- Whoever was known is known, at the same node. -/
def Grows (before after : Overlay) : Prop := before.registry.Grows after.registry

instance : IsPreorder Overlay Grows where
  refl overlay := .refl overlay.registry
  trans _ _ _ first second := first.trans second

theorem leads_modifyRegistry {change : Registry → Registry}
    (grows : ∀ registry : Registry, registry.Grows (change registry)) :
    Leads Grows (modifyRegistry change) :=
  .modify fun overlay => grows overlay.registry

theorem leads_upsert (peer : Peer) : Leads Grows (upsert peer) :=
  .modifyGet fun overlay => overlay.registry.grows_upsert peer

theorem leads_outcome (outcome : Except Fault Value) :
    Leads Grows (ExceptT.mk (pure outcome) : OverlayAction Value) :=
  .outcome outcome

variable (network : Network)

theorem leads_send (target : SocketAddress) (frame : Frame) :
    Leads Grows (send network target frame) :=
  (leads_outcome _).bind fun _ => .modify fun overlay => .refl overlay.registry

theorem leads_handleHello (peer : Peer) (observedAddress : Option String)
    (source : IpAddress) : Leads Grows (handleHello network peer observedAddress source) := by
  have learns : Leads Grows (modifyRegistry fun registry =>
      { registry with own := learnAddress observedAddress registry.own }) :=
    leads_modifyRegistry fun registry =>
      Registry.grows_own (learnAddress_id observedAddress registry.own)
  refine learns.bind fun _ => ?_
  refine Leads.get.bind fun overlay => ?_
  split
  · exact (leads_upsert _).bind fun _ => .pure ()
  · split
    · exact (Leads.modify fun overlay => .refl overlay.registry).bind fun _ =>
        (leads_upsert _).bind fun _ => .pure ()
    · refine (leads_outcome _).bind fun target => ?_
      refine (leads_upsert _).bind fun _ => ?_
      refine Leads.get.bind fun _ => ?_
      exact leads_send network _ _

theorem leads_broadcast (frame : Frame) (except : List String) :
    Leads Grows (broadcast network frame except) := by
  have delivers (peer : Peer) : Leads Grows (deliverTo network frame peer) := by
    apply Leads.tryCatch
    · refine (leads_outcome _).bind fun target => ?_
      exact (leads_send network target frame).bind fun _ => .pure _
    · intro _
      exact (leads_modifyRegistry fun registry =>
        registry.grows_setConnected peer.id false).bind fun _ => .pure _
  refine Leads.get.bind fun overlay => ?_
  exact (Leads.mapM delivers _).bind fun _ => .pure _

theorem leads_record (messageId : String) : Leads Grows (record messageId) :=
  .modifyGet fun overlay => .refl overlay.registry

theorem leads_handleFrame (source : IpAddress) (frame : Frame) :
    Leads Grows (handleFrame network source frame) := by
  cases frame with
  | hello peer observedAddress => exact leads_handleHello network peer observedAddress source
  | publish topic messageId origin sender data =>
      refine (leads_record messageId).bind fun isNew => ?_
      cases isNew with
      | false => exact .pure ()
      | true =>
          refine (leads_modifyRegistry fun registry =>
            registry.grows_setConnected sender true).bind fun _ => ?_
          refine (Leads.modify fun overlay => .refl overlay.registry).bind fun _ => ?_
          refine Leads.get.bind fun _ => ?_
          exact (leads_broadcast network _ _).bind fun _ => .pure ()

theorem leads_handleConnection (source : IpAddress) (bytes : Bytes) :
    Leads Grows (handleConnection network source bytes) := by
  have each (frame : Frame) :
      Leads Grows (tryCatch (handleFrame network source frame) fun _ => return ()) :=
    (leads_handleFrame network source frame).tryCatch fun _ => .pure ()
  refine (Leads.forM each _).bind fun _ => ?_
  split
  · exact .pure ()
  · exact .outcome _

theorem leads_publish (topic : String) (data : Bytes) :
    Leads Grows (publish network topic data) := by
  unfold publish
  refine Leads.get_bind fun overlay => ?_
  refine Leads.set_bind (.refl overlay.registry) ?_
  refine (leads_record _).bind fun _ => ?_
  refine (leads_broadcast network _ _).bind ?_
  rintro ⟨attempted, reached⟩
  dsimp only
  split
  · exact leads_outcome _
  · exact .pure ()

theorem leads_takeAll (topic : String) : Leads Grows (takeAll topic) := by
  intro overlay
  rcases topics_takeAll overlay topic with ⟨topics, same⟩
  rw [same]
  exact .refl overlay.registry

end Overlay

end LedgerNode
