import RpcSpec.Dsl.Rewrites
import RpcSpec.Dsl.Contracts
import RpcSpec.Foundation.Moves
set_option autoImplicit false

/-!
# What items may write

The items of a field only write where one of them, or one of the fields of their
sections, is a modifier.  That holds however the run ends, so it also says what a
request that is refused looks like afterwards.

`Item.modifierPaths` computes where an item may write from its structure, and
`runProcessors_moves` proves of every run that it writes there only, given that each
modifier puts scalars in the place of leaves.
-/

namespace RpcSpec.Dsl

open RpcSpec.Foundation FieldView

variable {α : Type}

/-! ## Where the modifiers stand -/

mutual

/-- The paths, from the value of the field, of the fields that carry a modifier. -/
def Item.modifierPaths : Item α → List Path
  | .modifier _ => [[]]
  | .withCustomError wrapped _ _ => wrapped.modifierPaths
  | .ifType _ subItems => itemsPaths subItems
  | .section_ subFields => sectionPaths subFields
  | .serverConditional _ inners => itemsPaths inners
  | _ => []

/-- The paths that a list of items may rewrite. -/
def itemsPaths : List (Item α) → List Path
  | [] => []
  | item :: rest => item.modifierPaths ++ itemsPaths rest

/-- The paths that a section may rewrite, each under the key of its subfield. -/
def sectionPaths : List (FieldSpec α) → List Path
  | [] => []
  | .mk key items :: rest => (itemsPaths items).map (.key key :: ·) ++ sectionPaths rest

end

mutual

/-- Every modifier in the item satisfies `P`. -/
def Item.AllModifiers (P : EStateM Failure FieldView Unit → Prop) : Item α → Prop
  | .modifier modify => P modify
  | .withCustomError wrapped _ _ => wrapped.AllModifiers P
  | .ifType _ subItems => AllModifiers P subItems
  | .section_ subFields => SectionModifiers P subFields
  | .serverConditional _ inners => AllModifiers P inners
  | _ => True

/-- Every modifier in the list satisfies `P`. -/
def AllModifiers (P : EStateM Failure FieldView Unit → Prop) : List (Item α) → Prop
  | [] => True
  | item :: rest => item.AllModifiers P ∧ AllModifiers P rest

/-- Every modifier in the subfields satisfies `P`. -/
def SectionModifiers (P : EStateM Failure FieldView Unit → Prop) : List (FieldSpec α) → Prop
  | [] => True
  | .mk _ items :: rest => AllModifiers P items ∧ SectionModifiers P rest

end

mutual

/-- Where there is no modifier there is nothing to ask of one. -/
theorem Item.allModifiers_of_noPaths {P : EStateM Failure FieldView Unit → Prop} :
    ∀ {item : Item α}, item.modifierPaths = [] → item.AllModifiers P
  | .requirement _, _ => by simp only [Item.AllModifiers]
  | .modifier _, h => by rw [Item.modifierPaths] at h; cases h
  | .deprecated, _ => by simp only [Item.AllModifiers]
  | .guard _, _ => by simp only [Item.AllModifiers]
  | .defaultTo _, _ => by simp only [Item.AllModifiers]
  | .withCustomError wrapped _ _, h => by
      rw [Item.modifierPaths] at h
      rw [Item.AllModifiers]
      exact Item.allModifiers_of_noPaths h
  | .ifType _ subItems, h => by
      rw [Item.modifierPaths] at h
      rw [Item.AllModifiers]
      exact allModifiers_of_noPaths h
  | .section_ subFields, h => by
      rw [Item.modifierPaths] at h
      rw [Item.AllModifiers]
      exact sectionModifiers_of_noPaths h
  | .serverConditional _ inners, h => by
      rw [Item.modifierPaths] at h
      rw [Item.AllModifiers]
      exact allModifiers_of_noPaths h

/-- A list that may rewrite nothing meets any condition on its modifiers: it has none. -/
theorem allModifiers_of_noPaths {P : EStateM Failure FieldView Unit → Prop} :
    ∀ {items : List (Item α)}, itemsPaths items = [] → AllModifiers P items
  | [], _ => by rw [AllModifiers]; trivial
  | item :: rest, h => by
      rw [itemsPaths, List.append_eq_nil_iff] at h
      rw [AllModifiers]
      exact ⟨Item.allModifiers_of_noPaths h.1, allModifiers_of_noPaths h.2⟩

theorem sectionModifiers_of_noPaths {P : EStateM Failure FieldView Unit → Prop} :
    ∀ {subFields : List (FieldSpec α)}, sectionPaths subFields = [] →
      SectionModifiers P subFields
  | [], _ => by rw [SectionModifiers]; trivial
  | .mk _ items :: rest, h => by
      rw [sectionPaths, List.append_eq_nil_iff, List.map_eq_nil_iff] at h
      rw [SectionModifiers]
      exact ⟨allModifiers_of_noPaths h.1, sectionModifiers_of_noPaths h.2⟩

end

/-! ## Views with a part rewritten -/

/-- The same field, with its value rewritten at or below the paths. -/
def ViewWithin (allowed : List Path) (v v' : FieldView) : Prop :=
  v'.key = v.key ∧ PartsWithin allowed v.value v'.value

namespace ViewWithin

variable {allowed allowed' : List Path} {v v' v'' : FieldView}

theorem refl (v : FieldView) : ViewWithin allowed v v := ⟨rfl, .refl _ _⟩

theorem trans (h : ViewWithin allowed v v') (h' : ViewWithin allowed v' v'') :
    ViewWithin allowed v v'' := ⟨h'.1.trans h.1, h.2.trans h'.2⟩

/-- What stays within the allowed paths stays within more of them. -/
theorem mono (hcovers : CoversPaths allowed' allowed) (h : ViewWithin allowed v v') :
    ViewWithin allowed' v v' := ⟨h.1, h.2.mono hcovers⟩

/-- A rewritten field keeps its presence and its root. -/
theorem sameField (h : ViewWithin allowed v v') : SameField v v' := ⟨h.1, h.2.isSome⟩

/-- A field that may be rewritten nowhere is unchanged. -/
theorem eq (h : ViewWithin [] v v') : v' = v := by
  obtain ⟨k, value⟩ := v
  obtain ⟨k', value'⟩ := v'
  obtain ⟨hkey, hvalue⟩ := h
  simp only at hkey hvalue
  rw [hkey, hvalue.eq]

/-- A member put back rewrites the object below that member's key only. -/
theorem putChild {key : String} {childView : FieldView}
    (h : ViewWithin allowed (v.child key) childView) :
    ViewWithin (allowed.map (.key key :: ·)) v (v.putChild key childView) := by
  have hcovers : CoversPaths (descend (.key key) (allowed.map (.key key :: ·))) allowed :=
    .of_subset fun path hpath => mem_descend.mpr (.inr (List.mem_map_of_mem hpath))
  obtain ⟨k, value⟩ := v
  cases value with
  | none => exact .refl _
  | some json => exact ⟨rfl, .some (.putChild (h.2.mono hcovers))⟩

/-- An element put back rewrites the array below that index only. -/
theorem putElement {idx : Nat} {elementView : FieldView}
    (h : ViewWithin allowed (v.element idx) elementView) :
    ViewWithin (allowed.map (.index idx :: ·)) v (v.putElement idx elementView) := by
  have hcovers : CoversPaths (descend (.index idx) (allowed.map (.index idx :: ·))) allowed :=
    .of_subset fun path hpath => mem_descend.mpr (.inr (List.mem_map_of_mem hpath))
  obtain ⟨k, value⟩ := v
  cases value with
  | none => exact .refl _
  | some json =>
      cases json with
      | array items => exact ⟨rfl, .some (.putElement (h.2.mono hcovers))⟩
      | _ => exact .refl _

end ViewWithin

/-- The empty path covers every path. -/
theorem coversPaths_nil (allowed : List Path) : CoversPaths [[]] allowed :=
  fun _ _ => ⟨[], by simp, List.nil_prefix⟩

/-- However it ends, the modifier leaves the same field, with leaves rewritten. -/
def Frames (x : EStateM Failure FieldView Unit) : Prop := Moves (ViewWithin [[]]) x

/-! ## Running items -/

/-- A requirement only looks. -/
theorem moves_requirement (allowed : List Path) (verify : FieldView → MaybeError) :
    Moves (ViewWithin allowed) (do
      let fieldView ← get
      monadLift (verify fieldView) : EStateM Failure FieldView Unit) :=
  .get_bind fun v => by
    rw [endState_monadLift]
    exact .refl v

theorem coversPaths_append_left (allowed more : List Path) :
    CoversPaths (allowed ++ more) allowed :=
  .of_subset (List.subset_append_left _ _)

theorem coversPaths_append_right (allowed more : List Path) :
    CoversPaths (allowed ++ more) more := .of_subset (List.subset_append_right _ _)

theorem modifyAll_cons (item : Item α) (rest : List (Item α)) : modifyAll (item :: rest) =
    (if item.isModifier then item.modify else pure ()) >>= fun _ => modifyAll rest := by
  rw [modifyAll]
  cases item.isModifier <;> simp

mutual

/-- An item's modifiers stay within the paths it names. -/
theorem Item.modify_moves : ∀ {item : Item α}, item.AllModifiers Frames →
    Moves (ViewWithin item.modifierPaths) item.modify
  | .modifier modify, h => by
      rw [Item.AllModifiers] at h
      rw [Item.modifierPaths, Item.modify]
      exact h
  | .withCustomError wrapped code message, h => by
      rw [Item.AllModifiers] at h
      rw [Item.modifierPaths, Item.modify]
      exact (Item.modify_moves h).mapFailure
  | .ifType t subItems, h => by
      rw [Item.AllModifiers] at h
      rw [Item.modifierPaths, Item.modify]
      refine .get_bind ?_
      intro v
      split
      · exact .refl v
      · exact runProcessors_moves h v
  | .section_ subFields, h => by
      rw [Item.AllModifiers] at h
      rw [Item.modifierPaths, Item.modify]
      refine .get_bind ?_
      intro v
      split
      · exact .refl v
      split
      · exact .refl v
      · exact processNested_moves h v
  | .serverConditional active inners, h => by
      rw [Item.AllModifiers] at h
      rw [Item.modifierPaths, Item.modify]
      split
      · exact modifyAll_moves h
      · exact .pure .refl ()
  | .requirement _, _ => by simpa only [Item.modify] using .pure .refl ()
  | .deprecated, _ => by simpa only [Item.modify] using .pure .refl ()
  | .guard _, _ => by simpa only [Item.modify] using .pure .refl ()
  | .defaultTo _, _ => by simpa only [Item.modify] using .pure .refl ()

/-- The modifiers of a list stay within the paths of the list. -/
theorem modifyAll_moves : ∀ {items : List (Item α)}, AllModifiers Frames items →
    Moves (ViewWithin (itemsPaths items)) (modifyAll items)
  | [], _ => by rw [modifyAll]; exact .pure .refl ()
  | item :: rest, h => by
      rw [AllModifiers] at h
      rw [modifyAll_cons, itemsPaths]
      refine .bind (fun _ _ _ => .trans) ?_ fun _ =>
        (modifyAll_moves h.2).mono fun _ _ => .mono (coversPaths_append_right _ _)
      split
      · exact (Item.modify_moves h.1).mono fun _ _ => .mono (coversPaths_append_left _ _)
      · exact .pure .refl ()

/-- Processing a field stays within the paths of its items. -/
theorem runProcessors_moves : ∀ {items : List (Item α)}, AllModifiers Frames items →
    Moves (ViewWithin (itemsPaths items)) (runProcessors items)
  | [], _ => by rw [runProcessors]; exact .pure .refl ()
  | item :: rest, h => by
      rw [AllModifiers] at h
      rw [runProcessors_cons, itemsPaths]
      refine .bind (fun _ _ _ => .trans) ?_ fun _ =>
        (runProcessors_moves h.2).mono fun _ _ => .mono (coversPaths_append_right _ _)
      unfold callIfProcessor
      split
      · exact moves_requirement _ _
      split
      · exact (Item.modify_moves h.1).mono fun _ _ => .mono (coversPaths_append_left _ _)
      · exact .pure .refl ()

/-- Processing a section stays within the paths of its subfields. -/
theorem processNested_moves : ∀ {subFields : List (FieldSpec α)},
    SectionModifiers Frames subFields →
      Moves (ViewWithin (sectionPaths subFields)) (processNested subFields)
  | [], _ => by rw [processNested]; exact .pure .refl ()
  | .mk key items :: rest, h => by
      rw [SectionModifiers] at h
      rw [processNested, sectionPaths]
      refine .bind (fun _ _ _ => .trans) ?_ fun _ =>
        (processNested_moves h.2).mono fun _ _ => .mono (coversPaths_append_right _ _)
      exact .zoom (runProcessors_moves h.1) fun v childView hchild =>
        hchild.putChild.mono (coversPaths_append_left _ _)

end

/-- Items among which there is no modifier leave every view as it was. -/
theorem runProcessors_readOnly {items : List (Item α)} (h : itemsPaths items = [])
    (v : FieldView) : endState (runProcessors items) v = v := by
  have hmoves := runProcessors_moves (allModifiers_of_noPaths h) v
  rw [h] at hmoves
  exact hmoves.eq

end RpcSpec.Dsl
