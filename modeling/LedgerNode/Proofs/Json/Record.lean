import LedgerNode.Json.Record
import LedgerNode.Proofs.Json.Writing

namespace LedgerNode

/-!
# Records and variants are read back

An object whose members have different names gives each field the value that
stands under its name.  A variant gives its name and its content.  A list gives
the values of its items.
-/

namespace Json

theorem mapM_map_eq_some {entries : List α} {make : α → β} {read : β → Option γ} {result : α → γ}
    (reads : ∀ entry ∈ entries, read (make entry) = some (result entry)) :
    (entries.map make).mapM read = some (entries.map result) := by
  induction entries with
  | nil => rfl
  | cons entry entries ih =>
      have ⟨first, others⟩ := List.forall_mem_cons.mp reads
      rw [List.map_cons, List.mapM_cons, first, ih others]
      rfl

theorem list?_array_map {item : Json → Option Value} {write : Value → Json}
    (reads : ∀ value, item (write value) = some value) (values : List Value) :
    (array (values.map write)).list? item = some values := by
  have read : (values.map write).mapM item = some (values.map fun value => value) :=
    mapM_map_eq_some fun value _ => reads value
  rw [List.map_id'] at read
  exact read

/-! ## Records -/

theorem membersNamed_of_nodup {members : List (String × Json)}
    (distinct : (members.map Prod.fst).Nodup) {name : String} {value : Json}
    (member : (name, value) ∈ members) : membersNamed name members = [value] := by
  induction members with
  | nil => cases member
  | cons first members ih =>
      have ⟨new, distinct⟩ := List.nodup_cons.mp distinct
      rcases List.mem_cons.mp member with rfl | member
      · have alone : members.filter (·.1 == name) = [] := by
          refine List.filter_eq_nil_iff.mpr fun other found same => new ?_
          exact List.mem_map.mpr ⟨other, found, beq_iff_eq.mp same⟩
        rw [membersNamed, List.filter_cons, if_pos (beq_self_eq_true name), alone]
        rfl
      · have other : ¬(first.1 == name) = true := by
          intro same
          exact new (List.mem_map.mpr ⟨_, member, (beq_iff_eq.mp same).symm⟩)
        rw [membersNamed, List.filter_cons, if_neg other]
        exact ih distinct member

theorem fields?_ofMembers (fields : List (String × Presence)) (members : List (String × Json)) :
    fields? fields (ofMembers members) = fields.mapM (member? members) := by
  have kept : members.mapM (fun member => some (member.1, member.2)) = some members := by
    have pure : members.mapM (fun member => (pure (id member) : Option (String × Json))) =
        pure (members.map id) := List.mapM_pure
    rwa [List.map_id] at pure
  unfold fields? ofMembers
  simp [Function.comp_def, kept]

/-- A field of a record, when it may be left out, and the value that it has. -/
abbrev Row := String × Presence × Json

/-- The values of a record whose fields have different names are read back. -/
theorem fields?_ofRows (rows : List Row) (distinct : (rows.map Prod.fst).Nodup) :
    fields? (rows.map fun row => (row.1, row.2.1))
        (ofMembers (rows.map fun row => (row.1, row.2.2))) =
      some (rows.map fun row => some row.2.2) := by
  rw [fields?_ofMembers]
  refine mapM_map_eq_some fun row member => ?_
  have here : (row.1, row.2.2) ∈ rows.map fun row => (row.1, row.2.2) :=
    List.mem_map.mpr ⟨row, member, rfl⟩
  rw [member?, membersNamed_of_nodup (by rwa [List.map_map]) here]

theorem allFields?_ofMembers {members : List (String × Json)}
    (distinct : (members.map Prod.fst).Nodup) :
    (ofMembers members).allFields? (members.map Prod.fst) = some (members.map Prod.snd) := by
  have names : (members.map fun member => ((member.1, .required, member.2) : Row)).map Prod.fst =
      members.map Prod.fst := List.map_map
  have read := fields?_ofRows _ (names ▸ distinct)
  simp only [List.map_map, Function.comp_def, List.map_id'] at read
  rw [allFields?, List.map_map]
  simp only [Function.comp_def, read]
  exact mapM_map_eq_some fun _ _ => rfl

/-! ## Variants -/

@[simp]
theorem variant?_ofMembers (name : String) (content : Json) :
    (ofMembers [(name, content)]).variant? = some (name, some content) := by
  simp [ofMembers, variant?]

@[simp]
theorem unitVariant?_ofText (name : String) : (ofText name).unitVariant? = some name := by
  simp [unitVariant?, ofText, variant?]

@[simp]
theorem text?_ofText (text : String) : (ofText text).text? = some text :=
  spelledText?_escape text

end Json

end LedgerNode
