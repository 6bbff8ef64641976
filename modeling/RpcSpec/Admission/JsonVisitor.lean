import RpcSpec.Admission.Types
set_option autoImplicit false

/-!
# The JSON visitor (`admissionspec/JsonVisitor.hpp`)

The handler that turns the callbacks of a streaming parser into events for the
check.  Every callback is a function on the visitor that also returns whether to
keep parsing.

`containerKeys_.back()` is undefined on an empty vector.  The two callbacks that
close a container return `none` there.
-/

namespace RpcSpec.Admission

/-- `JsonVisitor<Check>` with the state of the check it refers to.  The last
element of `containerKeys_` comes first in the list. -/
structure JsonVisitor (σ : Type) where
  checkState : σ
  decision_ : AdmissionDecision
  depth_ : UInt32
  containerKeys_ : List Bytes
  pendingKey_ : Bytes

variable {σ : Type}

namespace JsonVisitor

/-- `JsonVisitor{check, decision}`, the decision being `admit()`. -/
def create (checkState : σ) : JsonVisitor σ where
  checkState := checkState
  decision_ := .admit_ 0
  depth_ := 0
  containerKeys_ := []
  pendingKey_ := []

variable (check : Check σ) (visitor : JsonVisitor σ)

/-! ## Private members -/

/-- Runs the check on an event and keeps its decision. -/
def emit (event : VisitEvent) : Bool × JsonVisitor σ :=
  let (decision, checkState) := check visitor.checkState event
  (decision.admitted, { visitor with checkState := checkState, decision_ := decision })

/-- An event that consumes the pending key. -/
def emitLeaf (event : VisitEvent) : Bool × JsonVisitor σ :=
  let event := { event with key := visitor.pendingKey_, depth := visitor.depth_ }
  let (keepGoing, visitor) := visitor.emit check event
  (keepGoing, { visitor with pendingKey_ := [] })

/-- Opens a container, whose key waits until its end. -/
def beginContainer (kind : EventKind) : Bool × JsonVisitor σ :=
  let key := visitor.pendingKey_
  let depth := visitor.depth_
  let visitor :=
    { visitor with
      containerKeys_ := key :: visitor.containerKeys_
      pendingKey_ := []
      depth_ := depth + 1 }
  visitor.emit check { kind := kind, key := key, depth := depth }

/-- Closes a container. Without an open one the source would pop an empty vector. -/
def endContainer (kind : EventKind) (n : Nat) : Option (Bool × JsonVisitor σ) :=
  match visitor.containerKeys_ with
  | [] => none
  | key :: keys =>
      let depth := visitor.depth_ - 1
      let visitor := { visitor with depth_ := depth }
      let (keepGoing, visitor) :=
        visitor.emit check { kind := kind, key := key, size := n, depth := depth }
      some (keepGoing, { visitor with containerKeys_ := keys })

/-! ## The callbacks -/

/-- `on_array_begin`. -/
def onArrayBegin : Bool × JsonVisitor σ := visitor.beginContainer check .arrayBegin

/-- `on_array_end`, with the number of elements. -/
def onArrayEnd (n : Nat) : Option (Bool × JsonVisitor σ) :=
  visitor.endContainer check .arrayEnd n

/-- `on_object_begin`. -/
def onObjectBegin : Bool × JsonVisitor σ := visitor.beginContainer check .objectBegin

/-- `on_object_end`, with the number of members. -/
def onObjectEnd (n : Nat) : Option (Bool × JsonVisitor σ) :=
  visitor.endContainer check .objectEnd n

/-- A partial piece does not consume the key: the final `onString` still needs
it. -/
def onStringPart (s : Bytes) (n : Nat) : Bool × JsonVisitor σ :=
  visitor.emit check
    { kind := .stringPart, key := visitor.pendingKey_, size := n, depth := visitor.depth_
      value := .text s }

/-- The last piece of a string. -/
def onString (s : Bytes) (n : Nat) : Bool × JsonVisitor σ :=
  visitor.emitLeaf check { kind := .string, size := n, value := .text s }

/-- A piece of a key, which waits for the rest. -/
def onKeyPart (s : Bytes) (n : Nat) : Bool × JsonVisitor σ :=
  let visitor := { visitor with pendingKey_ := visitor.pendingKey_ ++ s }
  visitor.emit check { kind := .keyPart, size := n, depth := visitor.depth_, value := .text s }

/-- The last piece of a key: from here on it is pending. -/
def onKey (s : Bytes) (n : Nat) : Bool × JsonVisitor σ :=
  let visitor := { visitor with pendingKey_ := visitor.pendingKey_ ++ s }
  visitor.emit check { kind := .key, size := n, depth := visitor.depth_, value := .text s }

/-- A piece of a number's text, before the number itself. -/
def onNumberPart (s : Bytes) : Bool × JsonVisitor σ :=
  visitor.emit check
    { kind := .numberPart, key := visitor.pendingKey_, depth := visitor.depth_
      value := .text s }

/-- A signed number. -/
def onInt64 (i : Int64) : Bool × JsonVisitor σ :=
  visitor.emitLeaf check { kind := .int64, value := .int64 i }

/-- A number too large for `int64_t`. -/
def onUint64 (u : UInt64) : Bool × JsonVisitor σ :=
  visitor.emitLeaf check { kind := .uint64, value := .uint64 u }

/-- `d` is the bit pattern of the double. -/
def onDouble (d : UInt64) : Bool × JsonVisitor σ :=
  visitor.emitLeaf check { kind := .double, value := .double d }

/-- `true` or `false`. -/
def onBool (b : Bool) : Bool × JsonVisitor σ :=
  visitor.emitLeaf check { kind := .bool, value := .bool b }

/-- `null`. -/
def onNull : Bool × JsonVisitor σ := visitor.emitLeaf check { kind := .null }

/-- A piece of a comment, which belongs to no key. -/
def onCommentPart (s : Bytes) : Bool × JsonVisitor σ :=
  visitor.emit check { kind := .commentPart, depth := visitor.depth_, value := .text s }

/-- The last piece of a comment. -/
def onComment (s : Bytes) : Bool × JsonVisitor σ :=
  visitor.emit check { kind := .comment, depth := visitor.depth_, value := .text s }

end JsonVisitor

/-- A callback of the parser.  The source text of a finished number is handed over
as well, and not used. -/
inductive JsonCallback where
  | documentBegin
  | documentEnd
  | arrayBegin
  | arrayEnd (n : Nat)
  | objectBegin
  | objectEnd (n : Nat)
  | stringPart (s : Bytes) (n : Nat)
  | string (s : Bytes) (n : Nat)
  | keyPart (s : Bytes) (n : Nat)
  | key (s : Bytes) (n : Nat)
  | numberPart (s : Bytes)
  | int64 (i : Int64) (s : Bytes)
  | uint64 (u : UInt64) (s : Bytes)
  | double (d : UInt64) (s : Bytes)
  | bool (b : Bool)
  | null
  | commentPart (s : Bytes)
  | comment (s : Bytes)
  deriving DecidableEq

namespace JsonVisitor

/-- The visitor called back. -/
def handle (check : Check σ) (visitor : JsonVisitor σ) :
    JsonCallback → Option (Bool × JsonVisitor σ)
  | .documentBegin => some (true, visitor)
  | .documentEnd => some (true, visitor)
  | .arrayBegin => some (visitor.onArrayBegin check)
  | .arrayEnd n => visitor.onArrayEnd check n
  | .objectBegin => some (visitor.onObjectBegin check)
  | .objectEnd n => visitor.onObjectEnd check n
  | .stringPart s n => some (visitor.onStringPart check s n)
  | .string s n => some (visitor.onString check s n)
  | .keyPart s n => some (visitor.onKeyPart check s n)
  | .key s n => some (visitor.onKey check s n)
  | .numberPart s => some (visitor.onNumberPart check s)
  | .int64 i _ => some (visitor.onInt64 check i)
  | .uint64 u _ => some (visitor.onUint64 check u)
  | .double d _ => some (visitor.onDouble check d)
  | .bool b => some (visitor.onBool check b)
  | .null => some (visitor.onNull check)
  | .commentPart s => some (visitor.onCommentPart check s)
  | .comment s => some (visitor.onComment check s)

/-- The callbacks of a parse, in order, until one asks to stop. -/
def run (check : Check σ) (visitor : JsonVisitor σ) :
    List JsonCallback → Option (Bool × JsonVisitor σ)
  | [] => some (true, visitor)
  | callback :: callbacks =>
      match visitor.handle check callback with
      | none => none
      | some (false, visitor) => some (false, visitor)
      | some (true, visitor) => run check visitor callbacks

/-- After callbacks that did not ask to stop come the next ones. -/
theorem run_append {check : Check σ} {visitor visitor' : JsonVisitor σ}
    {callbacks : List JsonCallback} (h : visitor.run check callbacks = some (true, visitor'))
    (callbacks' : List JsonCallback) :
    visitor.run check (callbacks ++ callbacks') = visitor'.run check callbacks' := by
  induction callbacks generalizing visitor with
  | nil =>
      cases h
      rfl
  | cons callback callbacks ih =>
      rw [List.cons_append, run]
      rw [run] at h
      split at h
      · cases h
      · cases h
      · exact ih h

end JsonVisitor

/-! ## `visitJson` -/

/-- `VisitJsonOptions`. -/
structure VisitJsonOptions where
  costForInvalidPayload : ℚ := 10
  maxDepth : UInt32 := 0xFFFFFFFF
  deriving DecidableEq, Repr

/-- The drop for a payload that is not valid JSON. -/
def VisitJsonOptions.invalidPayload (options : VisitJsonOptions) : AdmissionDecision :=
  .drop "Invalid JSON payload" options.costForInvalidPayload

/-- How `parser.write_some` ends.  Of an error code all that matters is whether it is
one. -/
inductive WriteEnding where
  | returned (consumed : Nat) (ec : Bool)
  /-- `boost::system::system_error`, with its code -/
  | systemError (code : Bool)
  | exception
  deriving DecidableEq, Repr

namespace WriteEnding

/-- `ec` behind the `try` block. -/
def ec (size : Nat) : WriteEnding → Bool
  | .returned consumed ec => if !ec && consumed != size then true else ec
  | .systemError code => code
  | .exception => true

end WriteEnding

/-- The callbacks close no container that is not open. -/
def closesOpened : Nat → List JsonCallback → Bool
  | _, [] => true
  | opened, .arrayBegin :: callbacks => closesOpened (opened + 1) callbacks
  | opened, .objectBegin :: callbacks => closesOpened (opened + 1) callbacks
  | opened, .arrayEnd _ :: callbacks => 0 < opened && closesOpened (opened - 1) callbacks
  | opened, .objectEnd _ :: callbacks => 0 < opened && closesOpened (opened - 1) callbacks
  | opened, _ :: callbacks => closesOpened opened callbacks

/-- What `boost::json::basic_parser` does with a payload: the callbacks it makes while
each asks to go on, and how it ends behind the last of them, or behind one that asks to
stop, after which it makes none. -/
structure ParserRun where
  callbacks : List JsonCallback
  nested : closesOpened 0 callbacks = true
  finished : WriteEnding
  stopped : WriteEnding

/-- `boost::json::basic_parser`, by the nesting it allows and the payload. -/
abbrev BasicParser := UInt32 → Bytes → ParserRun

/-- `visitJson(bytes, check, options)` with the check in state `s`. -/
def visitJson (parser : BasicParser) (bytes : ByteSpan) (check : Check σ) (s : σ)
    (options : VisitJsonOptions) : Option (AdmissionDecision × σ) :=
  let parse := parser options.maxDepth bytes.bytes
  match (JsonVisitor.create s).run check parse.callbacks with
  | none => none
  | some (keepGoing, visitor) =>
      let ec := (if keepGoing then parse.finished else parse.stopped).ec bytes.size
      -- the drop of a check wins over the error that stopping it makes the parser report
      if visitor.decision_.dropped then some (visitor.decision_, visitor.checkState)
      else if ec then some (options.invalidPayload, visitor.checkState)
      else some (visitor.decision_, visitor.checkState)

end RpcSpec.Admission
