import RpcSpec.Admission.JsonTree
set_option autoImplicit false

/-!
# The events of a JSON document

`JsonTree.traverse` is the traversal a check may rely on: it is defined on the
value alone and knows nothing of pieces, stacks or pending keys.  The visitor,
called back for a value in any pieces, hands the check that traversal, with the
events for pieces before the last in between.

The proof follows the tree.  What the visitor does does not depend on the check
while every event is admitted, so it is followed with the check that records.
-/

namespace RpcSpec.Admission

/-! ## The canonical traversal -/

/-- What an event says apart from the text of its piece. -/
structure Outline where
  kind : EventKind
  key : Bytes
  size : Nat
  depth : Nat
  leaf : EventValue
  deriving DecidableEq

/-- An event for a piece before the last. -/
def EventKind.isPart : EventKind → Bool
  | .keyPart | .stringPart | .numberPart | .commentPart => true
  | _ => false

/-- The outline of an event. -/
def VisitEvent.outline (event : VisitEvent) : Outline where
  kind := event.kind
  key := event.key
  size := event.size
  depth := event.depth.toNat
  leaf := match event.value with
    | .text _ => .monostate
    | value => value

/-- The outlines of the events that are not for a piece before the last. -/
def outlines (events : List VisitEvent) : List Outline :=
  (events.filter (fun event => !event.kind.isPart)).map VisitEvent.outline

/-- The event of a number. -/
def JsonNumber.outline (key : Bytes) (depth : Nat) : JsonNumber → Outline
  | .int64 i => ⟨.int64, key, 0, depth, .int64 i⟩
  | .uint64 u => ⟨.uint64, key, 0, depth, .uint64 u⟩
  | .double d => ⟨.double, key, 0, depth, .double d⟩

mutual

/-- The traversal of a value that is the member named `key`, or an element or the
document with no key, inside `depth` containers. -/
def JsonTree.traverse (key : Bytes) (depth : Nat) : JsonValue → List Outline
  | .null => [⟨.null, key, 0, depth, .monostate⟩]
  | .bool b => [⟨.bool, key, 0, depth, .bool b⟩]
  | .number n => [n.outline key depth]
  | .string s => [⟨.string, key, s.length, depth, .monostate⟩]
  | .array elements =>
      ⟨.arrayBegin, key, 0, depth, .monostate⟩ :: (elements.traverse (depth + 1) ++
        [⟨.arrayEnd, key, elements.length, depth, .monostate⟩])
  | .object members =>
      ⟨.objectBegin, key, 0, depth, .monostate⟩ :: (members.traverse (depth + 1) ++
        [⟨.objectEnd, key, members.length, depth, .monostate⟩])

/-- The events of the elements, one after the other. -/
def JsonElements.traverse (depth : Nat) : JsonElements Bytes JsonNumber → List Outline
  | .nil => []
  | .cons value rest => value.traverse [] depth ++ rest.traverse depth

def JsonMembers.traverse (depth : Nat) : JsonMembers Bytes JsonNumber → List Outline
  | .nil => []
  | .cons key value rest =>
      ⟨.key, [], key.length, depth, .monostate⟩ ::
        (value.traverse key depth ++ rest.traverse depth)

end

mutual

/-- The strings of a value, keys apart, in document order. -/
def JsonTree.strings : JsonValue → List Bytes
  | .null | .bool _ | .number _ => []
  | .string s => [s]
  | .array elements => elements.strings
  | .object members => members.strings

/-- The texts of the elements. -/
def JsonElements.strings : JsonElements Bytes JsonNumber → List Bytes
  | .nil => []
  | .cons value rest => value.strings ++ rest.strings

def JsonMembers.strings : JsonMembers Bytes JsonNumber → List Bytes
  | .nil => []
  | .cons _ value rest => value.strings ++ rest.strings

end

/-- Append the text of a `StringPart` to the pieces so far, and finish a string at
its `String`. -/
def collectString (collected : List Bytes × Bytes) (event : VisitEvent) :
    List Bytes × Bytes :=
  match event.kind, event.value with
  | .stringPart, .text s => (collected.1, collected.2 ++ s)
  | .string, .text s => (collected.1 ++ [collected.2 ++ s], [])
  | _, _ => collected

/-- The concatenations of the `StringPart` and `String` pieces in a stream. -/
def stringsOf (events : List VisitEvent) : List Bytes :=
  (events.foldl collectString ([], [])).1

/-! ## Following the visitor -/

/-- A visitor with the recording check. -/
abbrev Recorder := JsonVisitor (List VisitEvent)

/-- The recorder that stands where the visitor does and has seen what its check
was handed. -/
def JsonVisitor.recorder {σ : Type} (visitor : JsonVisitor (σ × List VisitEvent)) :
    Recorder where
  checkState := visitor.checkState.2
  decision_ := .admit_ 0
  depth_ := visitor.depth_
  containerKeys_ := visitor.containerKeys_
  pendingKey_ := visitor.pendingKey_

section

variable {σ : Type} {check : Check σ} (hadmits : AdmitsAll check)

include hadmits

/-- A callback does to the visitor what it does to its recorder. -/
theorem handle_recorder (visitor : JsonVisitor (σ × List VisitEvent))
    (callback : JsonCallback) :
    (visitor.handle (observed check) callback).map (Prod.map id JsonVisitor.recorder) =
      visitor.recorder.handle recording callback := by
  have hemit : ∀ event, (check visitor.checkState.1 event).1.admitted = true :=
    hadmits visitor.checkState.1
  cases callback with
  | documentBegin => rfl
  | documentEnd => rfl
  | arrayBegin => exact congrArg some (Prod.ext (hemit _) rfl)
  | objectBegin => exact congrArg some (Prod.ext (hemit _) rfl)
  | stringPart s n => exact congrArg some (Prod.ext (hemit _) rfl)
  | string s n => exact congrArg some (Prod.ext (hemit _) rfl)
  | keyPart s n => exact congrArg some (Prod.ext (hemit _) rfl)
  | key s n => exact congrArg some (Prod.ext (hemit _) rfl)
  | numberPart s => exact congrArg some (Prod.ext (hemit _) rfl)
  | int64 i s => exact congrArg some (Prod.ext (hemit _) rfl)
  | uint64 u s => exact congrArg some (Prod.ext (hemit _) rfl)
  | double d s => exact congrArg some (Prod.ext (hemit _) rfl)
  | bool b => exact congrArg some (Prod.ext (hemit _) rfl)
  | null => exact congrArg some (Prod.ext (hemit _) rfl)
  | commentPart s => exact congrArg some (Prod.ext (hemit _) rfl)
  | comment s => exact congrArg some (Prod.ext (hemit _) rfl)
  | arrayEnd n =>
      obtain ⟨state, decision, depth, keys, pending⟩ := visitor
      cases keys with
      | nil => rfl
      | cons key keys => exact congrArg some (Prod.ext (hemit _) rfl)
  | objectEnd n =>
      obtain ⟨state, decision, depth, keys, pending⟩ := visitor
      cases keys with
      | nil => rfl
      | cons key keys => exact congrArg some (Prod.ext (hemit _) rfl)

/-- So do the callbacks of a whole parse. -/
theorem run_recorder (callbacks : List JsonCallback) :
    ∀ visitor : JsonVisitor (σ × List VisitEvent),
      (visitor.run (observed check) callbacks).map (Prod.map id JsonVisitor.recorder) =
        visitor.recorder.run recording callbacks := by
  induction callbacks with
  | nil => intro visitor; rfl
  | cons callback callbacks ih =>
      intro visitor
      have hhandle := handle_recorder hadmits visitor callback
      rw [JsonVisitor.run, JsonVisitor.run, ← hhandle]
      cases visitor.handle (observed check) callback with
      | none => rfl
      | some handled =>
          obtain ⟨keepGoing, visitor'⟩ := handled
          cases keepGoing with
          | false => rfl
          | true => exact ih visitor'

/-- The depth and the stack of keys agree. -/
def JsonVisitor.Stacked (visitor : JsonVisitor σ) : Prop :=
  visitor.containerKeys_.length = visitor.depth_.toNat

omit hadmits in
theorem JsonVisitor.Stacked.begin {visitor : JsonVisitor σ} (hstacked : visitor.Stacked)
    (hbound : (visitor.depth_.toNat : ℤ) + 1 < 2 ^ 32) :
    visitor.containerKeys_.length + 1 = (visitor.depth_ + 1).toNat ∧
      ((visitor.depth_ + 1).toNat : ℤ) = visitor.depth_.toNat + 1 := by
  have hnext : (visitor.depth_ + 1).toNat = visitor.depth_.toNat + 1 := by
    rw [UInt32.toNat_add, UInt32.toNat_one, Nat.mod_eq_of_lt (by omega)]
  rw [hnext, hstacked]
  exact ⟨rfl, rfl⟩

omit hadmits in
theorem JsonVisitor.Stacked.end {visitor : JsonVisitor σ} (hstacked : visitor.Stacked)
    (hopen : 0 ≤ (visitor.depth_.toNat : ℤ) + -1) :
    ∃ key keys, visitor.containerKeys_ = key :: keys ∧
      keys.length = (visitor.depth_ - 1).toNat ∧
      ((visitor.depth_ - 1).toNat : ℤ) = visitor.depth_.toNat + -1 := by
  have hprev : (visitor.depth_ - 1).toNat = visitor.depth_.toNat - 1 :=
    UInt32.toNat_sub_of_le _ _ (UInt32.le_iff_toNat_le.mpr (by rw [UInt32.toNat_one]; omega))
  unfold Stacked at hstacked
  cases hkeys : visitor.containerKeys_ with
  | nil =>
      rw [hkeys, List.length_nil] at hstacked
      omega
  | cons key keys =>
      rw [hkeys, List.length_cons] at hstacked
      exact ⟨key, keys, rfl, by omega, by omega⟩

theorem endContainer_stacked (visitor : JsonVisitor σ) (kind : EventKind) (n : Nat)
    (hstacked : visitor.Stacked) (hopen : 0 ≤ (visitor.depth_.toNat : ℤ) + -1) :
    ∃ visitor', visitor.endContainer check kind n = some (true, visitor') ∧
      visitor'.Stacked ∧ (visitor'.depth_.toNat : ℤ) = visitor.depth_.toNat + -1 := by
  obtain ⟨key, keys, hkeys, hend⟩ := hstacked.end hopen
  rw [JsonVisitor.endContainer, hkeys]
  exact ⟨_, congrArg some (Prod.ext (hadmits _ _) rfl), hend⟩

/-- A callback keeps the depth and the stack of keys at the number of open
containers, as long as it closes only what is open and does not nest too deep. -/
theorem handle_stacked (visitor : JsonVisitor σ) (callback : JsonCallback)
    (hstacked : visitor.Stacked) (hopen : 0 ≤ (visitor.depth_.toNat : ℤ) + callback.delta)
    (hbound : (visitor.depth_.toNat : ℤ) + callback.delta < 2 ^ 32) :
    ∃ visitor', visitor.handle check callback = some (true, visitor') ∧ visitor'.Stacked ∧
      (visitor'.depth_.toNat : ℤ) = visitor.depth_.toNat + callback.delta := by
  have hemit : ∀ event, (check visitor.checkState event).1.admitted = true :=
    hadmits visitor.checkState
  -- callbacks that neither open nor close a container
  have hflat : ∀ handled : Bool × JsonVisitor σ, handled.1 = true →
      handled.2.depth_ = visitor.depth_ →
      handled.2.containerKeys_ = visitor.containerKeys_ →
      ∃ visitor', some handled = some (true, visitor') ∧ visitor'.Stacked ∧
        (visitor'.depth_.toNat : ℤ) = visitor.depth_.toNat + 0 := by
    intro handled htrue hdepth hkeys
    refine ⟨handled.2, congrArg some (Prod.ext htrue rfl), ?_, by rw [hdepth, add_zero]⟩
    rw [JsonVisitor.Stacked, hdepth, hkeys]
    exact hstacked
  cases callback with
  | documentBegin => exact hflat (true, visitor) rfl rfl rfl
  | documentEnd => exact hflat (true, visitor) rfl rfl rfl
  | stringPart s n => exact hflat _ (hemit _) rfl rfl
  | string s n => exact hflat _ (hemit _) rfl rfl
  | keyPart s n => exact hflat _ (hemit _) rfl rfl
  | key s n => exact hflat _ (hemit _) rfl rfl
  | numberPart s => exact hflat _ (hemit _) rfl rfl
  | int64 i s => exact hflat _ (hemit _) rfl rfl
  | uint64 u s => exact hflat _ (hemit _) rfl rfl
  | double d s => exact hflat _ (hemit _) rfl rfl
  | bool b => exact hflat _ (hemit _) rfl rfl
  | null => exact hflat _ (hemit _) rfl rfl
  | commentPart s => exact hflat _ (hemit _) rfl rfl
  | comment s => exact hflat _ (hemit _) rfl rfl
  | arrayBegin =>
      exact ⟨_, congrArg some (Prod.ext (hemit _) rfl), hstacked.begin hbound⟩
  | objectBegin =>
      exact ⟨_, congrArg some (Prod.ext (hemit _) rfl), hstacked.begin hbound⟩
  | arrayEnd n => exact endContainer_stacked hadmits visitor .arrayEnd n hstacked hopen
  | objectEnd n => exact endContainer_stacked hadmits visitor .objectEnd n hstacked hopen

/-- After any callbacks that nest properly, the depth and the length of the stack
are the number of open containers. -/
theorem run_stacked (callbacks : List JsonCallback) :
    ∀ visitor : JsonVisitor σ, visitor.Stacked →
      (∀ done, done <+: callbacks → 0 ≤ (visitor.depth_.toNat : ℤ) + openContainers done ∧
        (visitor.depth_.toNat : ℤ) + openContainers done < 2 ^ 32) →
      ∃ visitor', visitor.run check callbacks = some (true, visitor') ∧ visitor'.Stacked ∧
        (visitor'.depth_.toNat : ℤ) = visitor.depth_.toNat + openContainers callbacks := by
  induction callbacks with
  | nil =>
      intro visitor hstacked _
      exact ⟨visitor, rfl, hstacked, by simp⟩
  | cons callback callbacks ih =>
      intro visitor hstacked hinside
      have hfirst := hinside [callback] (by simp)
      rw [openContainers_cons, openContainers_nil, add_zero] at hfirst
      obtain ⟨mid, hhandle, hmid, hdepth⟩ :=
        handle_stacked hadmits visitor callback hstacked hfirst.1 hfirst.2
      obtain ⟨visitor', hrun, hend, hdepth'⟩ := ih mid hmid (fun done hdone => by
        have hlater := hinside (callback :: done) (List.cons_prefix_cons.mpr ⟨rfl, hdone⟩)
        rw [openContainers_cons, ← add_assoc, ← hdepth] at hlater
        exact hlater)
      refine ⟨visitor', ?_, hend, ?_⟩
      · rw [JsonVisitor.run, hhandle]
        exact hrun
      · rw [hdepth', hdepth, openContainers_cons, add_assoc]

end

/-! ## What the recorder records -/

/-- The recorder that has seen `events`. -/
def recorderAt (events : List VisitEvent) (depth : UInt32) (keys : List Bytes)
    (pending : Bytes) : Recorder :=
  ⟨events, .admit_ 0, depth, keys, pending⟩

/-- At this depth, and with this pending key, the callbacks make the recorder
record these events and leave that pending key. -/
def Emits (callbacks : List JsonCallback) (depth : UInt32) (pending pending' : Bytes)
    (events : List VisitEvent) : Prop :=
  ∀ seen keys, (recorderAt seen depth keys pending).run recording callbacks =
    some (true, recorderAt (seen ++ events) depth keys pending')

theorem Emits.append {callbacks callbacks' : List JsonCallback} {depth : UInt32}
    {pending pending' pending'' : Bytes} {events events' : List VisitEvent}
    (h : Emits callbacks depth pending pending' events)
    (h' : Emits callbacks' depth pending' pending'' events') :
    Emits (callbacks ++ callbacks') depth pending pending'' (events ++ events') := by
  intro seen keys
  rw [JsonVisitor.run_append (h seen keys), h' (seen ++ events) keys, List.append_assoc]

theorem Emits.nil (depth : UInt32) (pending : Bytes) : Emits [] depth pending pending [] := by
  intro seen keys
  rw [List.append_nil]
  rfl

/-- The events for the pieces before the last. -/
def partEvents (event : Bytes → Nat → VisitEvent) : Nat → List Bytes → List VisitEvent
  | _, [] => []
  | soFar, s :: parts =>
      event s (soFar + s.length) :: partEvents event (soFar + s.length) parts

/-- The event for a piece of a string. -/
def stringPartEvent (key : Bytes) (depth : UInt32) (s : Bytes) (n : Nat) : VisitEvent :=
  { kind := .stringPart, key := key, size := n, depth := depth, value := .text s }

/-- The event for a piece of a key. -/
def keyPartEvent (depth : UInt32) (s : Bytes) (n : Nat) : VisitEvent :=
  { kind := .keyPart, size := n, depth := depth, value := .text s }

/-- The event for a piece of a number's source text. -/
def numberPartEvent (key : Bytes) (depth : UInt32) (s : Bytes) : VisitEvent :=
  { kind := .numberPart, key := key, depth := depth, value := .text s }

theorem stringParts_emits (depth : UInt32) (pending : Bytes) (soFar : Nat)
    (parts : List Bytes) :
    Emits (partCallbacks .stringPart soFar parts) depth pending pending
      (partEvents (stringPartEvent pending depth) soFar parts) := by
  induction parts generalizing soFar with
  | nil => exact .nil depth pending
  | cons s parts ih =>
      have hfirst : Emits [.stringPart s (soFar + s.length)] depth pending pending
          [stringPartEvent pending depth s (soFar + s.length)] := fun _ _ => rfl
      exact hfirst.append (ih (soFar + s.length))

theorem keyParts_emits (depth : UInt32) (pending : Bytes) (soFar : Nat)
    (parts : List Bytes) :
    Emits (partCallbacks .keyPart soFar parts) depth pending (pending ++ parts.flatten)
      (partEvents (keyPartEvent depth) soFar parts) := by
  induction parts generalizing soFar pending with
  | nil =>
      rw [List.flatten_nil, List.append_nil]
      exact .nil depth pending
  | cons s parts ih =>
      have hfirst : Emits [.keyPart s (soFar + s.length)] depth pending (pending ++ s)
          [keyPartEvent depth s (soFar + s.length)] := fun _ _ => rfl
      rw [List.flatten_cons, ← List.append_assoc]
      exact hfirst.append (ih (pending ++ s) (soFar + s.length))

theorem numberParts_emits (depth : UInt32) (pending : Bytes) (parts : List Bytes) :
    Emits (parts.map .numberPart) depth pending pending
      (parts.map (numberPartEvent pending depth)) := by
  induction parts with
  | nil => exact .nil depth pending
  | cons s parts ih =>
      have hfirst : Emits [.numberPart s] depth pending pending
          [numberPartEvent pending depth s] := fun _ _ => rfl
      exact hfirst.append ih

/-! ## What the recorded events say -/

/-- Every event of a list of pieces is one of these. -/
theorem mem_partEvents {event : Bytes → Nat → VisitEvent} {parts : List Bytes} :
    ∀ {soFar : Nat} {e : VisitEvent}, e ∈ partEvents event soFar parts → ∃ s n, e = event s n := by
  induction parts with
  | nil => simp [partEvents]
  | cons s parts ih =>
      intro soFar e he
      rcases List.mem_cons.mp he with rfl | he
      · exact ⟨s, _, rfl⟩
      · exact ih he

theorem outlines_append (events events' : List VisitEvent) :
    outlines (events ++ events') = outlines events ++ outlines events' := by
  simp [outlines]

/-- Pieces before the last have no outline. -/
theorem outlines_of_parts {events : List VisitEvent}
    (h : ∀ e ∈ events, e.kind.isPart = true) : outlines events = [] := by
  rw [outlines, List.filter_eq_nil_iff.mpr (fun e he => by simp [h e he]), List.map_nil]

/-- The event says nothing about strings. -/
def VisitEvent.NoString (event : VisitEvent) : Prop :=
  event.kind ≠ .stringPart ∧ event.kind ≠ .string

theorem collectString_of_noString {event : VisitEvent} (h : event.NoString)
    (collected : List Bytes × Bytes) : collectString collected event = collected := by
  unfold collectString
  split
  · rename_i heq _
    exact absurd heq h.1
  · rename_i heq _
    exact absurd heq h.2
  · rfl

theorem foldl_collectString_of_noString {events : List VisitEvent}
    (h : ∀ e ∈ events, e.NoString) (collected : List Bytes × Bytes) :
    events.foldl collectString collected = collected := by
  induction events generalizing collected with
  | nil => rfl
  | cons e events ih =>
      rw [List.foldl_cons, collectString_of_noString (h e List.mem_cons_self),
        ih (fun e' he' => h e' (.tail _ he'))]

theorem foldl_collectString_stringParts (key : Bytes) (depth : UInt32) (soFar : Nat)
    (parts : List Bytes) (done : List Bytes) (text : Bytes) :
    (partEvents (stringPartEvent key depth) soFar parts).foldl collectString (done, text) =
      (done, text ++ parts.flatten) := by
  induction parts generalizing soFar text with
  | nil => simp [partEvents]
  | cons s parts ih =>
      rw [partEvents, List.foldl_cons, List.flatten_cons, ← List.append_assoc]
      exact ih _ _

/-- At this depth, and with this pending key, the callbacks make the visitor hand
over events with these outlines and these strings, and leave that pending key. -/
def Traverses (callbacks : List JsonCallback) (depth : UInt32) (pending pending' : Bytes)
    (outs : List Outline) (strings : List Bytes) : Prop :=
  ∃ events, Emits callbacks depth pending pending' events ∧ outlines events = outs ∧
    ∀ done, events.foldl collectString (done, []) = (done ++ strings, [])

namespace Traverses

variable {callbacks callbacks' : List JsonCallback} {depth : UInt32}
  {pending pending' pending'' : Bytes} {outs outs' : List Outline}
  {strings strings' : List Bytes}

theorem nil : Traverses [] depth pending pending [] [] :=
  ⟨[], .nil depth pending, rfl, by simp⟩

theorem append (h : Traverses callbacks depth pending pending' outs strings)
    (h' : Traverses callbacks' depth pending' pending'' outs' strings') :
    Traverses (callbacks ++ callbacks') depth pending pending'' (outs ++ outs')
      (strings ++ strings') := by
  obtain ⟨events, hemits, houts, hstrings⟩ := h
  obtain ⟨events', hemits', houts', hstrings'⟩ := h'
  refine ⟨events ++ events', hemits.append hemits', ?_, ?_⟩
  · rw [outlines_append, houts, houts']
  · intro done
    rw [List.foldl_append, hstrings, hstrings', List.append_assoc]

/-- A callback with one event that is neither a string nor a piece. -/
theorem event {callback : JsonCallback} {e : VisitEvent}
    (hemits : Emits [callback] depth pending pending' [e]) (hpart : e.kind.isPart = false)
    (hstring : e.NoString) : Traverses [callback] depth pending pending' [e.outline] [] := by
  refine ⟨[e], hemits, ?_, ?_⟩
  · simp [outlines, hpart]
  · intro done
    rw [foldl_collectString_of_noString (by simpa using hstring), List.append_nil]

/-- A container around callbacks that leave no pending key. -/
theorem container (first last : JsonCallback) (firstKind lastKind : EventKind) (n : Nat)
    (hfirst : ∀ visitor : Recorder,
      visitor.handle recording first = some (visitor.beginContainer recording firstKind))
    (hlast : ∀ visitor : Recorder,
      visitor.handle recording last = visitor.endContainer recording lastKind n)
    (hplain : firstKind.isPart = false ∧ firstKind ≠ .stringPart ∧ firstKind ≠ .string)
    (hplain' : lastKind.isPart = false ∧ lastKind ≠ .stringPart ∧ lastKind ≠ .string)
    (key : Bytes) (h : Traverses callbacks (depth + 1) [] [] outs strings) :
    Traverses (first :: (callbacks ++ [last])) depth key []
      (⟨firstKind, key, 0, depth.toNat, .monostate⟩ ::
        (outs ++ [⟨lastKind, key, n, depth.toNat, .monostate⟩])) strings := by
  obtain ⟨events, hemits, houts, hstrings⟩ := h
  let opening : VisitEvent := { kind := firstKind, key := key, depth := depth }
  let closing : VisitEvent := { kind := lastKind, key := key, size := n, depth := depth }
  refine ⟨opening :: (events ++ [closing]), ?_, ?_, ?_⟩
  · intro seen keys
    have hbegin : (recorderAt seen depth keys key).run recording [first] =
        some (true, recorderAt (seen ++ [opening]) (depth + 1) (key :: keys) []) := by
      rw [JsonVisitor.run, hfirst]
      rfl
    have hend : (recorderAt (seen ++ [opening] ++ events) (depth + 1) (key :: keys) []).run
        recording [last] =
        some (true, recorderAt (seen ++ [opening] ++ events ++ [closing]) depth keys []) := by
      have hdepth : depth + 1 - 1 = depth := by simp
      rw [JsonVisitor.run, hlast]
      simp only [JsonVisitor.endContainer, JsonVisitor.emit, recorderAt, recording, hdepth]
      rfl
    rw [← List.singleton_append, JsonVisitor.run_append hbegin,
      JsonVisitor.run_append (hemits _ _), hend]
    simp
  · have hopening : outlines [opening] = [⟨firstKind, key, 0, depth.toNat, .monostate⟩] := by
      simp [outlines, opening, hplain.1, VisitEvent.outline]
    have hclosing : outlines [closing] = [⟨lastKind, key, n, depth.toNat, .monostate⟩] := by
      simp [outlines, closing, hplain'.1, VisitEvent.outline]
    rw [← List.singleton_append, outlines_append, outlines_append, hopening, houts, hclosing]
    rfl
  · intro done
    have hopening : collectString (done, []) opening = (done, []) :=
      collectString_of_noString (show opening.NoString from hplain.2) (done, [])
    have hclosing : collectString (done ++ strings, []) closing = (done ++ strings, []) :=
      collectString_of_noString (show closing.NoString from hplain'.2) (done ++ strings, [])
    rw [List.foldl_cons, List.foldl_append, hopening, hstrings, List.foldl_cons, hclosing]
    rfl

end Traverses

/-- A key in pieces leaves the whole key pending. -/
theorem Pieces.key_traverses (key : Pieces) (depth : UInt32) :
    Traverses (key.callbacks .keyPart .key) depth [] key.text
      [⟨.key, [], key.text.length, depth.toNat, .monostate⟩] [] := by
  have hparts := keyParts_emits depth [] 0 key.parts
  have hlast : Emits [.key key.last key.text.length] depth ([] ++ key.parts.flatten) key.text
      [{ kind := .key, size := key.text.length, depth := depth, value := .text key.last }] :=
    fun _ _ => rfl
  refine ⟨_, hparts.append hlast, ?_, ?_⟩
  · rw [outlines_append, outlines_of_parts]
    · rfl
    · intro e he
      obtain ⟨s, n, rfl⟩ := mem_partEvents he
      rfl
  · intro done
    rw [foldl_collectString_of_noString, List.append_nil]
    intro e he
    rcases List.mem_append.mp he with he | he
    · obtain ⟨s, n, rfl⟩ := mem_partEvents he
      exact ⟨by simp [keyPartEvent], by simp [keyPartEvent]⟩
    · rw [List.mem_singleton.mp he]
      exact ⟨by simp, by simp⟩

/-- A string in pieces is one string, under the key that was pending. -/
theorem Pieces.string_traverses (text : Pieces) (depth : UInt32) (key : Bytes) :
    Traverses (text.callbacks .stringPart .string) depth key []
      [⟨.string, key, text.text.length, depth.toNat, .monostate⟩] [text.text] := by
  have hparts := stringParts_emits depth key 0 text.parts
  have hlast : Emits [.string text.last text.text.length] depth key []
      [{ kind := .string, key := key, size := text.text.length, depth := depth
         value := .text text.last }] := fun _ _ => rfl
  refine ⟨_, hparts.append hlast, ?_, ?_⟩
  · rw [outlines_append, outlines_of_parts]
    · rfl
    · intro e he
      obtain ⟨s, n, rfl⟩ := mem_partEvents he
      rfl
  · intro done
    rw [List.foldl_append, foldl_collectString_stringParts]
    rfl

/-- A number in pieces is one number, under the key that was pending. -/
theorem SplitNumber.traverses (number : SplitNumber) (depth : UInt32) (key : Bytes) :
    Traverses number.callbacks depth key [] [number.value.outline key depth.toNat] [] := by
  have hparts := numberParts_emits depth key number.source.parts
  have hnone : ∀ e ∈ number.source.parts.map (numberPartEvent key depth),
      e.kind = .numberPart := by
    intro e he
    obtain ⟨s, _, rfl⟩ := List.mem_map.mp he
    rfl
  have hfirst : Traverses (number.source.parts.map .numberPart) depth key key [] [] := by
    refine ⟨_, hparts, outlines_of_parts (fun e he => by rw [hnone e he]; rfl), fun done => ?_⟩
    rw [foldl_collectString_of_noString, List.append_nil]
    intro e he
    exact ⟨by simp [hnone e he], by simp [hnone e he]⟩
  have hlast : Traverses [number.value.callback number.source.last] depth key []
      [number.value.outline key depth.toNat] [] := by
    cases number.value with
    | int64 i =>
        exact Traverses.event
          (e := { kind := .int64, key := key, depth := depth, value := .int64 i })
          (fun _ _ => rfl) rfl ⟨by simp, by simp⟩
    | uint64 u =>
        exact Traverses.event
          (e := { kind := .uint64, key := key, depth := depth, value := .uint64 u })
          (fun _ _ => rfl) rfl ⟨by simp, by simp⟩
    | double d =>
        exact Traverses.event
          (e := { kind := .double, key := key, depth := depth, value := .double d })
          (fun _ _ => rfl) rfl ⟨by simp, by simp⟩
  exact hfirst.append hlast

mutual

/-- A value in pieces makes the visitor hand over its traversal. -/
theorem JsonTree.traverses : ∀ (value : SplitJson) (depth : UInt32) (key : Bytes),
    depth.toNat + value.nesting < 2 ^ 32 →
      Traverses value.callbacks depth key [] (value.value.traverse key depth.toNat)
        value.value.strings
  | .null, depth, key, _ =>
      Traverses.event (e := { kind := .null, key := key, depth := depth })
        (fun _ _ => rfl) rfl ⟨by simp, by simp⟩
  | .bool b, depth, key, _ =>
      Traverses.event (e := { kind := .bool, key := key, depth := depth, value := .bool b })
        (fun _ _ => rfl) rfl ⟨by simp, by simp⟩
  | .number n, depth, key, _ => n.traverses depth key
  | .string s, depth, key, _ => s.string_traverses depth key
  | .array elements, depth, key, hdepth => by
      rw [JsonTree.nesting] at hdepth
      have hnext : (depth + 1).toNat = depth.toNat + 1 := by
        rw [UInt32.toNat_add, UInt32.toNat_one, Nat.mod_eq_of_lt (by omega)]
      have hinner := elements.traverses (depth + 1) (by omega)
      rw [hnext] at hinner
      have hall := hinner.container .arrayBegin (.arrayEnd elements.length) .arrayBegin
        .arrayEnd elements.length (fun _ => rfl) (fun _ => rfl) ⟨rfl, by simp, by simp⟩
        ⟨rfl, by simp, by simp⟩ key
      rw [JsonTree.value, JsonTree.traverse, elements.length_value]
      exact hall
  | .object members, depth, key, hdepth => by
      rw [JsonTree.nesting] at hdepth
      have hnext : (depth + 1).toNat = depth.toNat + 1 := by
        rw [UInt32.toNat_add, UInt32.toNat_one, Nat.mod_eq_of_lt (by omega)]
      have hinner := members.traverses (depth + 1) (by omega)
      rw [hnext] at hinner
      have hall := hinner.container .objectBegin (.objectEnd members.length) .objectBegin
        .objectEnd members.length (fun _ => rfl) (fun _ => rfl) ⟨rfl, by simp, by simp⟩
        ⟨rfl, by simp, by simp⟩ key
      rw [JsonTree.value, JsonTree.traverse, members.length_value]
      exact hall

theorem JsonElements.traverses : ∀ (elements : JsonElements Pieces SplitNumber)
    (depth : UInt32), depth.toNat + elements.nesting < 2 ^ 32 →
      Traverses elements.callbacks depth [] [] (elements.value.traverse depth.toNat)
        elements.value.strings
  | .nil, _, _ => .nil
  | .cons value rest, depth, hdepth => by
      rw [JsonElements.nesting] at hdepth
      exact (value.traverses depth [] (by omega)).append (rest.traverses depth (by omega))

theorem JsonMembers.traverses : ∀ (members : JsonMembers Pieces SplitNumber)
    (depth : UInt32), depth.toNat + members.nesting < 2 ^ 32 →
      Traverses members.callbacks depth [] [] (members.value.traverse depth.toNat)
        members.value.strings
  | .nil, _, _ => .nil
  | .cons key value rest, depth, hdepth => by
      rw [JsonMembers.nesting] at hdepth
      exact (key.key_traverses depth).append
        ((value.traverses depth key.text (by omega)).append (rest.traverses depth (by omega)))

end

/-! ## The whole document -/

/-- The visitor over a whole document, and what its check was handed. -/
def visitDocument {σ : Type} (check : Check σ) (checkState : σ) (document : SplitJson) :
    Option (Bool × JsonVisitor (σ × List VisitEvent)) :=
  (JsonVisitor.create (checkState, [])).run (observed check) document.documentCallbacks

theorem visitDocument_traverses {σ : Type} {check : Check σ} (hadmits : AdmitsAll check)
    (checkState : σ) (document : SplitJson) (hnesting : document.nesting < 2 ^ 32) :
    ∃ visitor, visitDocument check checkState document = some (true, visitor) ∧
      outlines visitor.checkState.2 = document.value.traverse [] 0 ∧
      stringsOf visitor.checkState.2 = document.value.strings := by
  obtain ⟨events, hemits, houts, hstrings⟩ :=
    document.traverses 0 [] (by rw [UInt32.toNat_zero, zero_add]; exact hnesting)
  have hrun : (recorderAt [] 0 [] []).run recording document.documentCallbacks =
      some (true, recorderAt events 0 [] []) := by
    have hvalue := hemits [] []
    rw [JsonTree.documentCallbacks, JsonVisitor.run]
    exact JsonVisitor.run_append hvalue [.documentEnd]
  have hrecorder := run_recorder hadmits document.documentCallbacks
    (JsonVisitor.create (checkState, []))
  rw [show (JsonVisitor.create (checkState, [])).recorder = recorderAt [] 0 [] [] from rfl, hrun,
    Option.map_eq_some_iff] at hrecorder
  obtain ⟨⟨keepGoing, visitor⟩, hvisit, heq⟩ := hrecorder
  obtain ⟨rfl, hrecorded⟩ := Prod.mk.inj heq
  have hevents : visitor.checkState.2 = events := congrArg JsonVisitor.checkState hrecorded
  exact ⟨visitor, hvisit, by rw [hevents, houts, UInt32.toNat_zero],
    by rw [hevents, stringsOf, hstrings, List.nil_append]⟩

/-- For every document, in whichever pieces its texts and numbers come, nested as
deep as the parser allows: after each callback the depth and the number of stacked
keys are the number of open containers; what the check was handed is the traversal
of the document, with the pieces of each string making up the string; and in other
pieces it would have been handed the same outlines. -/
theorem document_traversal {σ : Type} (check : Check σ) (hadmits : AdmitsAll check)
    (checkState : σ) (document : SplitJson) (maxDepth : UInt32)
    (hnesting : document.nesting ≤ maxDepth.toNat) :
    (∀ done, done <+: document.documentCallbacks →
      ∃ visitor, (JsonVisitor.create (checkState, [])).run (observed check) done =
          some (true, visitor) ∧
        (visitor.depth_.toNat : ℤ) = openContainers done ∧
        (visitor.containerKeys_.length : ℤ) = openContainers done) ∧
    ∃ visitor, visitDocument check checkState document = some (true, visitor) ∧
      outlines visitor.checkState.2 = document.value.traverse [] 0 ∧
      stringsOf visitor.checkState.2 = document.value.strings ∧
      ∀ document' : SplitJson, document'.value = document.value →
        ∃ visitor', visitDocument check checkState document' = some (true, visitor') ∧
          outlines visitor'.checkState.2 = outlines visitor.checkState.2 := by
  have hbound : document.nesting < 2 ^ 32 := hnesting.trans_lt maxDepth.toNat_lt
  constructor
  · intro done hdone
    have hnested := document.documentCallbacks_nested
    obtain ⟨visitor, hrun, hstacked, hdepth⟩ := run_stacked
      (show AdmitsAll (observed check) from fun state event => hadmits state.1 event) done
      (JsonVisitor.create (checkState, [])) rfl (fun front hfront => by
        have hinside := hnested.inside front (hfront.trans hdone)
        have hzero : ((JsonVisitor.create (checkState, ([] : List VisitEvent))).depth_.toNat : ℤ)
            = 0 := rfl
        omega)
    have hopen : (visitor.depth_.toNat : ℤ) = openContainers done := by
      rw [hdepth]
      exact zero_add _
    exact ⟨visitor, hrun, hopen, by rw [hstacked, hopen]⟩
  · obtain ⟨visitor, hvisit, houts, hstrings⟩ :=
      visitDocument_traverses hadmits checkState document hbound
    refine ⟨visitor, hvisit, houts, hstrings, ?_⟩
    intro document' hvalue
    have hbound' : document'.nesting < 2 ^ 32 := by
      rwa [← document'.nesting_value, hvalue, document.nesting_value]
    obtain ⟨visitor', hvisit', houts', _⟩ :=
      visitDocument_traverses hadmits checkState document' hbound'
    exact ⟨visitor', hvisit', by rw [houts', houts, hvalue]⟩

/-- `{"ab": "xyz", "": [7, null]}` with the key `ab` and the string `xyz` in pieces. -/
def splitDocument : SplitJson :=
  .object (.cons ⟨[[0x61]], [0x62]⟩ (.string ⟨[[0x78], [0x79]], [0x7a]⟩)
    (.cons ⟨[], []⟩
      (.array (.cons (.number ⟨⟨[[0x37]], []⟩, .int64 7⟩) (.cons .null .nil))) .nil))

theorem splitDocument_traversal :
    ∃ visitor, visitDocument recording [] splitDocument = some (true, visitor) ∧
      outlines visitor.checkState.2 = splitDocument.value.traverse [] 0 := by
  obtain ⟨_, visitor, hvisit, houts, _⟩ :=
    document_traversal recording recording_admitsAll [] splitDocument 2 (by decide)
  exact ⟨visitor, hvisit, houts⟩

end RpcSpec.Admission
