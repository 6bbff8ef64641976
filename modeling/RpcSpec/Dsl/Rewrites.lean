import RpcSpec.Dsl.Json
import Mathlib.Data.Option.Basic
set_option autoImplicit false

/-!
# Documents with some leaves rewritten

Two documents of one shape: the same keys in the same order, arrays of the same
length, and leaves that differ only at or below some paths.

`RewrittenWithin` is the relation, with the paths that may differ as its parameter. It is
reflexive, transitive and monotone in the paths, keeps the shape, and is kept when a
rewritten part is put back below its own step.
-/

namespace RpcSpec.Dsl

/-! ## Paths -/

/-- A step from a value into one of its parts. -/
inductive Step where
  | key (name : String)
  | index (idx : Nat)
  deriving DecidableEq, Repr

/-- Where in a document something stands: the keys and indices from its root. -/
abbrev Path := List Step

/-- What is left of the paths after a step; a path that has ended goes on for ever. -/
def descend (step : Step) (allowed : List Path) : List Path :=
  allowed.filterMap fun path =>
    match path with
    | [] => some []
    | first :: rest => if first = step then some rest else none

theorem mem_descend {step : Step} {allowed : List Path} {path : Path} :
    path ∈ descend step allowed ↔ (path = [] ∧ [] ∈ allowed) ∨ step :: path ∈ allowed := by
  rw [descend, List.mem_filterMap]
  constructor
  · rintro ⟨q, hq, hpath⟩
    cases q with
    | nil => exact .inl ⟨(Option.some.inj hpath).symm, hq⟩
    | cons first rest =>
        simp only [Option.ite_none_right_eq_some, Option.some.injEq] at hpath
        obtain ⟨rfl, rfl⟩ := hpath
        exact .inr hq
  · rintro (⟨rfl, h⟩ | h)
    · exact ⟨[], h, rfl⟩
    · exact ⟨_, h, by simp⟩

@[simp] theorem descend_nil (step : Step) : descend step [] = [] := rfl

/-- Every path of the second list starts with one of the first. -/
def CoversPaths (allowed' allowed : List Path) : Prop :=
  ∀ path ∈ allowed, ∃ q ∈ allowed', q <+: path

/-- A larger set of paths covers a smaller one. -/
theorem CoversPaths.of_subset {allowed allowed' : List Path} (h : allowed ⊆ allowed') :
    CoversPaths allowed' allowed := fun path hpath => ⟨path, h hpath, List.prefix_rfl⟩

theorem CoversPaths.nil_mem {allowed allowed' : List Path} (h : CoversPaths allowed' allowed)
    (hnil : [] ∈ allowed) : [] ∈ allowed' := by
  obtain ⟨q, hq, hprefix⟩ := h [] hnil
  rwa [List.prefix_nil.mp hprefix] at hq

/-- Covering is kept one step below. -/
theorem CoversPaths.descend {allowed allowed' : List Path} (h : CoversPaths allowed' allowed)
    (step : Step) : CoversPaths (descend step allowed') (descend step allowed) := by
  intro path hpath
  rcases mem_descend.mp hpath with ⟨rfl, hnil⟩ | hcons
  · exact ⟨[], mem_descend.mpr (.inl ⟨rfl, h.nil_mem hnil⟩), List.prefix_rfl⟩
  · obtain ⟨q, hq, hprefix⟩ := h _ hcons
    cases q with
    | nil => exact ⟨[], mem_descend.mpr (.inl ⟨rfl, hq⟩), List.nil_prefix⟩
    | cons first q =>
        obtain ⟨rfl, hrest⟩ := List.cons_prefix_cons.mp hprefix
        exact ⟨q, mem_descend.mpr (.inr hq), hrest⟩

/-- What is left of the paths after all the steps of one. -/
def descendAll (path : Path) (allowed : List Path) : List Path :=
  path.foldl (fun allowed step => descend step allowed) allowed

/-- The place reached by a path may be rewritten when the path goes through an allowed place. -/
theorem nil_mem_descendAll {path : Path} {allowed : List Path} :
    [] ∈ descendAll path allowed ↔ ∃ q ∈ allowed, q <+: path := by
  induction path generalizing allowed with
  | nil => simp [descendAll]
  | cons step rest ih =>
      change [] ∈ descendAll rest (descend step allowed) ↔ _
      rw [ih]
      constructor
      · rintro ⟨q, hq, hprefix⟩
        rcases mem_descend.mp hq with ⟨-, hnil⟩ | hcons
        · exact ⟨[], hnil, List.nil_prefix⟩
        · exact ⟨step :: q, hcons, List.cons_prefix_cons.mpr ⟨rfl, hprefix⟩⟩
      · rintro ⟨q, hq, hprefix⟩
        cases q with
        | nil => exact ⟨[], mem_descend.mpr (.inl ⟨rfl, hq⟩), List.nil_prefix⟩
        | cons first q =>
            obtain ⟨rfl, hrest⟩ := List.cons_prefix_cons.mp hprefix
            exact ⟨q, mem_descend.mpr (.inr hq), hrest⟩

namespace Json

/-- The part of a document a path leads to. -/
def at? : Path → Json → Option Json
  | [], json => some json
  | .key name :: rest, .object members => (members.lookup name).bind (at? rest)
  | .index idx :: rest, .array items => items[idx]?.bind (at? rest)
  | _ :: _, _ => none

/-- A string, a number or a boolean. -/
def isScalar : Json → Bool
  | .null | .array _ | .object _ => false
  | _ => true

/-- A scalar or `null`. -/
def isLeaf : Json → Bool
  | .array _ | .object _ => false
  | _ => true

mutual

/-- The document with `null` for every leaf: what is left are its keys, in their order,
and the lengths of its arrays. -/
def shape : Json → Json
  | .array items => .array (shapeItems items)
  | .object members => .object (shapeMembers members)
  | _ => .null

/-- The shapes of the elements. -/
def shapeItems : List Json → List Json
  | [] => []
  | json :: rest => json.shape :: shapeItems rest

/-- The members with their keys and the shapes of their values. -/
def shapeMembers : List (String × Json) → List (String × Json)
  | [] => []
  | (key, json) :: rest => (key, json.shape) :: shapeMembers rest

end

/-- A leaf has no shape of its own. -/
theorem shape_of_isLeaf {json : Json} (h : json.isLeaf = true) : json.shape = .null := by
  cases json with
  | array _ => cases h
  | object _ => cases h
  | _ => simp only [shape]

theorem isLeaf_of_isScalar {json : Json} (h : json.isScalar = true) : json.isLeaf = true := by
  cases json <;> simp_all [isScalar, isLeaf]

end Json

/-! ## Rewriting -/

mutual

/-- The document with leaves at or below the paths replaced by scalars. -/
inductive RewrittenWithin : List Path → Json → Json → Prop
  | same {allowed : List Path} (json : Json) : RewrittenWithin allowed json json
  | leaf {allowed : List Path} {json json' : Json} (hallowed : [] ∈ allowed)
      (hleaf : json.isLeaf = true) (hscalar : json'.isScalar = true) :
      RewrittenWithin allowed json json'
  | array {allowed : List Path} {items items' : List Json}
      (hitems : ElementsWithin allowed 0 items items') :
      RewrittenWithin allowed (.array items) (.array items')
  | object {allowed : List Path} {members members' : List (String × Json)}
      (hmembers : MembersWithin allowed members members') :
      RewrittenWithin allowed (.object members) (.object members')

/-- The elements of an array from an index on. -/
inductive ElementsWithin : List Path → Nat → List Json → List Json → Prop
  | nil {allowed : List Path} {idx : Nat} : ElementsWithin allowed idx [] []
  | cons {allowed : List Path} {idx : Nat} {json json' : Json} {items items' : List Json}
      (hitem : RewrittenWithin (descend (.index idx) allowed) json json')
      (hrest : ElementsWithin allowed (idx + 1) items items') :
      ElementsWithin allowed idx (json :: items) (json' :: items')

/-- The members of an object. -/
inductive MembersWithin : List Path → List (String × Json) → List (String × Json) → Prop
  | nil {allowed : List Path} : MembersWithin allowed [] []
  | cons {allowed : List Path} {key : String} {json json' : Json}
      {members members' : List (String × Json)}
      (hmember : RewrittenWithin (descend (.key key) allowed) json json')
      (hrest : MembersWithin allowed members members') :
      MembersWithin allowed ((key, json) :: members) ((key, json') :: members')

end

theorem ElementsWithin.refl (allowed : List Path) (idx : Nat) (items : List Json) :
    ElementsWithin allowed idx items items := by
  induction items generalizing idx with
  | nil => exact .nil
  | cons json rest ih => exact .cons (.same json) (ih (idx + 1))

theorem MembersWithin.refl (allowed : List Path) (members : List (String × Json)) :
    MembersWithin allowed members members := by
  induction members with
  | nil => exact .nil
  | cons member rest ih => exact .cons (.same _) ih

mutual

/-- A document rewritten within some paths is rewritten within any paths that cover them. -/
theorem RewrittenWithin.mono {allowed allowed' : List Path} (hcovers : CoversPaths allowed' allowed)
    {json json' : Json} : RewrittenWithin allowed json json' → RewrittenWithin allowed' json json'
  | .same json => .same json
  | .leaf hallowed hleaf hscalar => .leaf (hcovers.nil_mem hallowed) hleaf hscalar
  | .array hitems => .array (hitems.mono hcovers)
  | .object hmembers => .object (hmembers.mono hcovers)

theorem ElementsWithin.mono {allowed allowed' : List Path} (hcovers : CoversPaths allowed' allowed)
    {idx : Nat} {items items' : List Json} :
    ElementsWithin allowed idx items items' → ElementsWithin allowed' idx items items'
  | .nil => .nil
  | .cons hitem hrest => .cons (hitem.mono (hcovers.descend _)) (hrest.mono hcovers)

theorem MembersWithin.mono {allowed allowed' : List Path} (hcovers : CoversPaths allowed' allowed)
    {members members' : List (String × Json)} :
    MembersWithin allowed members members' → MembersWithin allowed' members members'
  | .nil => .nil
  | .cons hmember hrest => .cons (hmember.mono (hcovers.descend _)) (hrest.mono hcovers)

end

mutual

/-- Two rewritings within the same paths are one. -/
theorem RewrittenWithin.trans {allowed : List Path} {json json' json'' : Json} :
    RewrittenWithin allowed json json' → RewrittenWithin allowed json' json'' →
      RewrittenWithin allowed json json''
  | .same _, h => h
  | .leaf hallowed hleaf hscalar, h' => by
      cases h' with
      | same _ => exact .leaf hallowed hleaf hscalar
      | leaf _ _ hscalar' => exact .leaf hallowed hleaf hscalar'
      | array _ => cases hscalar
      | object _ => cases hscalar
  | .array hitems, h' => by
      cases h' with
      | same _ => exact .array hitems
      | leaf _ hleaf _ => cases hleaf
      | array hitems' => exact .array (hitems.trans hitems')
  | .object hmembers, h' => by
      cases h' with
      | same _ => exact .object hmembers
      | leaf _ hleaf _ => cases hleaf
      | object hmembers' => exact .object (hmembers.trans hmembers')

theorem ElementsWithin.trans {allowed : List Path} {idx : Nat} {items items' items'' : List Json} :
    ElementsWithin allowed idx items items' → ElementsWithin allowed idx items' items'' →
      ElementsWithin allowed idx items items''
  | .nil, .nil => .nil
  | .cons hitem hrest, .cons hitem' hrest' => .cons (hitem.trans hitem') (hrest.trans hrest')

theorem MembersWithin.trans {allowed : List Path}
    {members members' members'' : List (String × Json)} :
    MembersWithin allowed members members' → MembersWithin allowed members' members'' →
      MembersWithin allowed members members''
  | .nil, .nil => .nil
  | .cons hmember hrest, .cons hmember' hrest' =>
      .cons (hmember.trans hmember') (hrest.trans hrest')

end

/-! ### Without paths nothing is rewritten -/

mutual

/-- A document that may be rewritten nowhere is unchanged. -/
theorem RewrittenWithin.eq {json json' : Json} : RewrittenWithin [] json json' → json' = json
  | .same _ => rfl
  | .leaf hallowed _ _ => absurd hallowed (List.not_mem_nil)
  | .array hitems => congrArg Json.array hitems.eq
  | .object hmembers => congrArg Json.object hmembers.eq

theorem ElementsWithin.eq {idx : Nat} {items items' : List Json} :
    ElementsWithin [] idx items items' → items' = items
  | .nil => rfl
  | .cons hitem hrest => by rw [hitem.eq, hrest.eq]

theorem MembersWithin.eq {members members' : List (String × Json)} :
    MembersWithin [] members members' → members' = members
  | .nil => rfl
  | .cons hmember hrest => by rw [hmember.eq, hrest.eq]

end

/-! ### The shape stays -/

mutual

/-- Rewriting leaves keeps the shape of a document. -/
theorem RewrittenWithin.shape {allowed : List Path} {json json' : Json} :
    RewrittenWithin allowed json json' → json'.shape = json.shape
  | .same _ => rfl
  | .leaf _ hleaf hscalar => by
      rw [Json.shape_of_isLeaf hleaf, Json.shape_of_isLeaf (Json.isLeaf_of_isScalar hscalar)]
  | .array hitems => by rw [Json.shape, Json.shape, hitems.shape]
  | .object hmembers => by rw [Json.shape, Json.shape, hmembers.shape]

theorem ElementsWithin.shape {allowed : List Path} {idx : Nat} {items items' : List Json} :
    ElementsWithin allowed idx items items' → Json.shapeItems items' = Json.shapeItems items
  | .nil => rfl
  | .cons hitem hrest => by rw [Json.shapeItems, Json.shapeItems, hitem.shape, hrest.shape]

theorem MembersWithin.shape {allowed : List Path} {members members' : List (String × Json)} :
    MembersWithin allowed members members' →
      Json.shapeMembers members' = Json.shapeMembers members
  | .nil => rfl
  | .cons hmember hrest => by
      rw [Json.shapeMembers, Json.shapeMembers, hmember.shape, hrest.shape]

end

/-! ### Parts -/

/-- What is there in one is there in the other, rewritten. -/
abbrev PartsWithin (allowed : List Path) : Option Json → Option Json → Prop :=
  Option.Rel (RewrittenWithin allowed)

theorem PartsWithin.refl (allowed : List Path) (part : Option Json) :
    PartsWithin allowed part part := by
  cases part with
  | none => exact .none
  | some json => exact .some (.same json)

theorem PartsWithin.trans {allowed : List Path} {part part' part'' : Option Json}
    (h : PartsWithin allowed part part') (h' : PartsWithin allowed part' part'') :
    PartsWithin allowed part part'' := by
  cases h with
  | none => exact h'
  | some h =>
      cases h' with
      | some h' => exact .some (h.trans h')

/-- A part is there after the rewriting when it was there before. -/
theorem PartsWithin.isSome {allowed : List Path} {part part' : Option Json}
    (h : PartsWithin allowed part part') : part'.isSome = part.isSome := by
  cases h <;> rfl

theorem PartsWithin.mono {allowed allowed' : List Path} (hcovers : CoversPaths allowed' allowed)
    {part part' : Option Json} (h : PartsWithin allowed part part') :
    PartsWithin allowed' part part' := by
  cases h with
  | none => exact .none
  | some h => exact .some (h.mono hcovers)

/-- A part that may be rewritten nowhere is unchanged. -/
theorem PartsWithin.eq {part part' : Option Json} (h : PartsWithin [] part part') :
    part' = part := by
  cases h with
  | none => rfl
  | some h => rw [h.eq]

theorem ElementsWithin.length {allowed : List Path} {idx : Nat} {items items' : List Json}
    (h : ElementsWithin allowed idx items items') : items'.length = items.length := by
  induction items generalizing idx items' with
  | nil => cases h; rfl
  | cons json rest ih =>
      cases h with
      | cons _ hrest => simpa using ih hrest

/-- Each element is rewritten within the paths below its index. -/
theorem ElementsWithin.getElem? {allowed : List Path} {idx : Nat} {items items' : List Json}
    (h : ElementsWithin allowed idx items items') (i : Nat) :
    PartsWithin (descend (.index (idx + i)) allowed) items[i]? items'[i]? := by
  induction items generalizing idx items' i with
  | nil => cases h; exact .none
  | cons json rest ih =>
      cases h with
      | cons hitem hrest =>
          cases i with
          | zero => exact .some hitem
          | succ i =>
              have hpart := ih hrest i
              rwa [Nat.add_assoc, Nat.add_comm 1 i] at hpart

/-- Rewriting keeps the keys and their order. -/
theorem MembersWithin.keys {allowed : List Path} {members members' : List (String × Json)}
    (h : MembersWithin allowed members members') :
    members'.map Prod.fst = members.map Prod.fst := by
  induction members generalizing members' with
  | nil => cases h; rfl
  | cons member rest ih =>
      cases h with
      | cons _ hrest => simpa using ih hrest

/-- Each member is rewritten within the paths below its key. -/
theorem MembersWithin.lookup {allowed : List Path} {members members' : List (String × Json)}
    (h : MembersWithin allowed members members') (key : String) :
    PartsWithin (descend (.key key) allowed) (members.lookup key) (members'.lookup key) := by
  induction members generalizing members' with
  | nil => cases h; exact .none
  | cons member rest ih =>
      obtain ⟨k, json⟩ := member
      cases h with
      | cons hmember hrest =>
          by_cases hk : key = k
          · subst hk
            simpa using Option.Rel.some hmember
          · have hne : (key == k) = false := by simpa using hk
            simpa only [List.lookup_cons, hne] using ih hrest

theorem RewrittenWithin.member? {allowed : List Path} {json json' : Json}
    (h : RewrittenWithin allowed json json') (key : String) :
    PartsWithin (descend (.key key) allowed) (json.member? key) (json'.member? key) := by
  cases h with
  | same _ => exact .refl _ _
  | leaf _ hleaf hscalar =>
      have hnone {leaf : Json} (hleaf : leaf.isLeaf = true) : leaf.member? key = none := by
        cases leaf <;> first | rfl | cases hleaf
      rw [hnone hleaf, hnone (Json.isLeaf_of_isScalar hscalar)]
      exact .none
  | array _ => exact .none
  | object hmembers => exact hmembers.lookup key

/-- What is found along a path in one document is found in the other, rewritten. -/
theorem RewrittenWithin.at? {allowed : List Path} {json json' : Json}
    (h : RewrittenWithin allowed json json') (path : Path) :
    PartsWithin (descendAll path allowed) (json.at? path) (json'.at? path) := by
  induction path generalizing allowed json json' with
  | nil => exact .some h
  | cons step rest ih =>
      have hpart {step : Step} {part part' : Option Json}
          (hrel : PartsWithin (descend step allowed) part part') :
          PartsWithin (descendAll (step :: rest) allowed) (part.bind (Json.at? rest))
            (part'.bind (Json.at? rest)) := by
        cases hrel with
        | none => exact .none
        | some hrel => exact ih hrel
      cases h with
      | same json => exact .refl _ _
      | leaf _ hleaf hscalar =>
          -- neither a leaf nor a scalar has parts
          have hnone {leaf : Json} (hleaf : leaf.isLeaf = true) :
              leaf.at? (step :: rest) = none := by
            cases step <;> cases leaf <;> first | rfl | cases hleaf
          rw [hnone hleaf, hnone (Json.isLeaf_of_isScalar hscalar)]
          exact .none
      | array hitems =>
          cases step with
          | key name => exact .none
          | index idx => exact hpart (by simpa using hitems.getElem? idx)
      | object hmembers =>
          cases step with
          | key name => exact hpart (hmembers.lookup name)
          | index idx => exact .none

/-- A part that has become another lies on one of the paths. -/
theorem RewrittenWithin.of_leaf {allowed : List Path} {json json' : Json}
    (h : RewrittenWithin allowed json json') (hleaf : json.isLeaf = true) (hne : json' ≠ json) :
    [] ∈ allowed ∧ json'.isScalar = true := by
  cases h with
  | same _ => exact absurd rfl hne
  | leaf hallowed _ hscalar => exact ⟨hallowed, hscalar⟩
  | array _ => cases hleaf
  | object _ => cases hleaf

/-! ### Writing a part back -/

/-- A member put back in place rewrites the object below its key. -/
theorem MembersWithin.putMember {allowed : List Path} {key : String} {old new : Json}
    {members : List (String × Json)} (hlookup : members.lookup key = some old)
    (h : RewrittenWithin (descend (.key key) allowed) old new) :
    MembersWithin allowed members (putMember key new members) := by
  induction members with
  | nil => cases hlookup
  | cons member rest ih =>
      obtain ⟨k, json⟩ := member
      by_cases hk : k = key
      · subst hk
        obtain rfl : json = old := by simpa using hlookup
        simpa [Dsl.putMember] using MembersWithin.cons h (.refl allowed rest)
      · have hne : (key == k) = false := by simpa using Ne.symm hk
        simp only [List.lookup_cons, hne] at hlookup
        simpa [Dsl.putMember, hk] using MembersWithin.cons (.same json) (ih hlookup)

/-- Putting back a rewritten member rewrites the document below its key. -/
theorem RewrittenWithin.putChild {allowed : List Path} {key : String} {value : Option Json}
    {json : Json} (h : PartsWithin (descend (.key key) allowed) (json.member? key) value) :
    RewrittenWithin allowed json (json.putChild value key) := by
  cases json with
  | object members =>
      cases hlookup : members.lookup key with
      | none =>
          rw [Json.member?, hlookup] at h
          cases h
          exact .same _
      | some old =>
          rw [Json.member?, hlookup] at h
          cases h with
          | some h => exact .object (.putMember hlookup h)
  | _ => exact .same _

theorem ElementsWithin.set {allowed : List Path} {idx i : Nat} {old new : Json}
    {items : List Json} (hget : items[i]? = some old)
    (h : RewrittenWithin (descend (.index (idx + i)) allowed) old new) :
    ElementsWithin allowed idx items (items.set i new) := by
  induction items generalizing idx i with
  | nil => simp at hget
  | cons json rest ih =>
      cases i with
      | zero =>
          obtain rfl : json = old := by simpa using hget
          exact .cons h (.refl allowed _ rest)
      | succ i =>
          refine .cons (.same json) (ih (by simpa using hget) ?_)
          rwa [Nat.add_assoc, Nat.add_comm 1 i]

/-- Putting back a rewritten element rewrites the array below its index. -/
theorem RewrittenWithin.putElement {allowed : List Path} {idx : Nat} {value : Option Json}
    {items : List Json} (h : PartsWithin (descend (.index idx) allowed) items[idx]? value) :
    RewrittenWithin allowed (.array items) ((Json.array items).putElement value idx) := by
  cases hget : items[idx]? with
  | none =>
      rw [hget] at h
      cases h
      exact .same _
  | some old =>
      rw [hget] at h
      cases h with
      | some h => exact .array (.set hget (by simpa using h))

end RpcSpec.Dsl
