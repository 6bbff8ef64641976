import RpcSpec.Dsl.Overrides
set_option autoImplicit false

/-!
# The schema dump (`SpecDumpWriter.hpp`, `SpecDump.hpp` and the `dump` of every field)

A spec writes down what it accepts: a group of lines for each field that is dispatched, and
in it one for each item, indented under what holds it.  Of an item the dumper reads the name
and the parameters its type has; `Shows` says which these are.

`ShownField` and `ShownSpec` are a field and a spec together with what the dumper is told
of them, so that a dump always belongs to the spec it is written for.
-/

namespace RpcSpec.Dsl

open RpcSpec.Foundation

/-! ## The writer -/

/-- What the stream has been given, and the indentation. -/
structure SpecDumpWriter where
  os : List Char
  indent : Int
  deriving DecidableEq, Repr

/-- A value `writeScalar` is given; of one that is neither a `bool` nor a text, what the
stream makes of it. -/
inductive Scalar where
  | bool (value : Bool)
  | text (value : String)
  | streamed (value : String)
  deriving DecidableEq, Repr

namespace SpecDumpWriter

/-- `*os_ << text`. -/
def put (writer : SpecDumpWriter) (text : String) : SpecDumpWriter :=
  { writer with os := writer.os ++ text.toList }

/-- One level further in. -/
def push (writer : SpecDumpWriter) : SpecDumpWriter := { writer with indent := writer.indent + 1 }

/-- One level back out. -/
def pop (writer : SpecDumpWriter) : SpecDumpWriter := { writer with indent := writer.indent - 1 }

/-- Two spaces for each level. -/
def writeIndent (writer : SpecDumpWriter) : SpecDumpWriter :=
  (List.range writer.indent.toNat).foldl (fun writer _ => writer.put "  ") writer

/-- A line of a list. -/
def bullet (writer : SpecDumpWriter) (name : String)
    (body : SpecDumpWriter → SpecDumpWriter) : SpecDumpWriter :=
  (body (((writer.writeIndent.put "- ").put name).put "\n").push).pop

/-- A line of a list with a body under it. -/
def bulletGroup (writer : SpecDumpWriter) (name : String)
    (body : SpecDumpWriter → SpecDumpWriter) : SpecDumpWriter :=
  (body (((writer.writeIndent.put "- ").put name).put ":\n").push).pop

/-- A scalar as the dump writes it, strings in quotes. -/
def writeScalar (writer : SpecDumpWriter) : Scalar → SpecDumpWriter
  | .bool value => writer.put (if value then "true" else "false")
  | .text value => ((writer.put "\"").put value).put "\""
  | .streamed value => writer.put value

/-- A line `key: value`. -/
def param (writer : SpecDumpWriter) (key : String) (value : Scalar) : SpecDumpWriter :=
  (((writer.writeIndent.put key).put ": ").writeScalar value).put "\n"

/-- The loop of `paramList`, with `first`. -/
def writeScalars (writer : SpecDumpWriter) (first : Bool) : List Scalar → SpecDumpWriter
  | [] => writer
  | value :: rest =>
      let writer := if first then writer else writer.put ", "
      (writer.writeScalar value).writeScalars false rest

/-- A line `key: [value, value]`. -/
def paramList (writer : SpecDumpWriter) (key : String) (values : List Scalar) : SpecDumpWriter :=
  (((writer.writeIndent.put key).put ": [").writeScalars true values).put "]\n"

end SpecDumpWriter

/-! ## Items -/

/-- A call of the writer in a `describeParams`. -/
inductive Param where
  | param (key : String) (value : Scalar)
  | paramList (key : String) (values : List Scalar)
  deriving DecidableEq, Repr

mutual

/-- What `dumpItem` sees of an item: its `kName`, what its `describeParams` writes, what it
holds. -/
inductive DumpItem where
  | subFields (kName : String) (fields : List DumpFieldSpec)
  | subItems (kName : String) (params : List Param) (items : List DumpItem)
  | wrapped (kName : String) (message : String) (item : DumpItem)
  | params (kName : String) (params : List Param)
  | named (kName : String)
  | custom

/-- A subfield with the dump of its items. -/
inductive DumpFieldSpec where
  | mk (key : String) (items : List DumpItem)

end

/-- Writes one parameter. -/
def Param.describe (writer : SpecDumpWriter) : Param → SpecDumpWriter
  | .param key value => writer.param key value
  | .paramList key values => writer.paramList key values

/-- Writes the parameters of an item in order. -/
def describeParams (params : List Param) (writer : SpecDumpWriter) : SpecDumpWriter :=
  params.foldl Param.describe writer

mutual

/-- `dumpItem`. -/
def dumpItem : DumpItem → SpecDumpWriter → SpecDumpWriter
  | .subFields kName fields, writer => writer.bulletGroup kName (dumpFieldSpecs fields)
  | .subItems kName params items, writer => writer.bulletGroup kName fun writer =>
      dumpItems items (describeParams params writer)
  | .wrapped kName message item, writer => writer.bulletGroup kName fun writer =>
      dumpItem item (if message.isEmpty then writer else writer.param "message" (.text message))
  | .params kName params, writer => writer.bulletGroup kName (describeParams params)
  | .named kName, writer => writer.bullet kName id
  | .custom, writer => writer.bullet "custom" id

/-- Writes items one below the other. -/
def dumpItems : List DumpItem → SpecDumpWriter → SpecDumpWriter
  | [], writer => writer
  | item :: rest, writer => dumpItems rest (dumpItem item writer)

/-- `dumpFieldSpec`. -/
def dumpFieldSpec : DumpFieldSpec → SpecDumpWriter → SpecDumpWriter
  | .mk key items, writer => writer.bulletGroup key (dumpItems items)

/-- Writes subfields one below the other. -/
def dumpFieldSpecs : List DumpFieldSpec → SpecDumpWriter → SpecDumpWriter
  | [], writer => writer
  | field :: rest, writer => dumpFieldSpecs rest (dumpFieldSpec field writer)

end

/-! ## What an item shows -/

/-- `typeNameOf`. -/
def typeNameOf : JsonType → String
  | .int64 => "int64"
  | .uint32 => "uint32"
  | .bool => "bool"
  | .double => "double"
  | .string => "string"
  | .object => "object"
  | .array => "array"

mutual

/-- What `dumpItem` may see of an item.  A leaf has the `kName` and the parameters of its own
type, if any; `ServerConditionalValidator` has neither. -/
inductive Shows {α : Type} : Item α → DumpItem → Prop
  | requirementParams (verify : FieldView → MaybeError) (kName : String) (params : List Param) :
      Shows (.requirement verify) (.params kName params)
  | requirementNamed (verify : FieldView → MaybeError) (kName : String) :
      Shows (.requirement verify) (.named kName)
  | requirementCustom (verify : FieldView → MaybeError) : Shows (.requirement verify) .custom
  | modifierParams (modify : EStateM Failure FieldView Unit) (kName : String)
      (params : List Param) : Shows (.modifier modify) (.params kName params)
  | modifierNamed (modify : EStateM Failure FieldView Unit) (kName : String) :
      Shows (.modifier modify) (.named kName)
  | modifierCustom (modify : EStateM Failure FieldView Unit) : Shows (.modifier modify) .custom
  | deprecated : Shows .deprecated (.named "deprecated")
  | ifAbsent (guardKey : String) :
      Shows (.guard (.ifAbsent guardKey)) (.params "ifAbsent" [.param "key" (.text guardKey)])
  | never : Shows (.guard .never) (.named "never")
  | defaultTo (value : α) (shown : Scalar) :
      Shows (.defaultTo value) (.params "default" [.param "value" shown])
  | withCustomError {wrapped : Item α} {shown : DumpItem} (code : CombinedError)
      (message : String) : Shows wrapped shown →
      Shows (.withCustomError wrapped code message) (.wrapped "withCustomError" message shown)
  | ifType {subItems : List (Item α)} {shown : List DumpItem} (type : JsonType) :
      ShowsAll subItems shown → Shows (.ifType type subItems)
        (.subItems "ifType" [.param "type" (.text (typeNameOf type))] shown)
  | section_ {subFields : List (FieldSpec α)} {shown : List DumpFieldSpec} :
      ShowsFields subFields shown → Shows (.section_ subFields) (.subFields "section" shown)
  | serverConditional (active : Bool) (inners : List (Item α)) :
      Shows (.serverConditional active inners) .custom

/-- The items of a list with what the dump shows of them. -/
inductive ShowsAll {α : Type} : List (Item α) → List DumpItem → Prop
  | nil : ShowsAll [] []
  | cons {item : Item α} {shown : DumpItem} {rest : List (Item α)} {shownRest : List DumpItem} :
      Shows item shown → ShowsAll rest shownRest → ShowsAll (item :: rest) (shown :: shownRest)

/-- The subfields of a section with what the dump shows of them. -/
inductive ShowsFields {α : Type} : List (FieldSpec α) → List DumpFieldSpec → Prop
  | nil : ShowsFields [] []
  | cons {key : String} {items : List (Item α)} {shown : List DumpItem}
      {rest : List (FieldSpec α)} {shownRest : List DumpFieldSpec} : ShowsAll items shown →
      ShowsFields rest shownRest → ShowsFields (.mk key items :: rest) (.mk key shown :: shownRest)

end

/-! ## Fields -/

/-- What the items of the field show. -/
def Field.Shows {Input : Type} : Field Input → List DumpItem → Prop
  | .bound field, shown => ShowsAll field.items shown
  | .aliased _ field, shown => ShowsAll field.items shown
  | .ledgerSelector _, shown => shown = []
  | .unbound field, shown => ShowsAll field.items shown

/-- A field with what its items and its converter show. -/
structure ShownField (Input : Type) where
  field : Field Input
  items : List DumpItem
  conv : DumpItem
  shows : field.Shows items

/-- A spec with what its fields show. -/
structure ShownSpec (Input : Type) [InputAggregate Input] where
  spec : TypedSpec Input
  fields : List (ShownField Input)
  same : fields.map ShownField.field = spec.fields

variable {Input : Type}

namespace ShownField

def key (shown : ShownField Input) : String := shown.field.key

/-- `BoundField::dump`, with the key that `AliasedField` may have put in place of its own. -/
def dump (shown : ShownField Input) (key : String) (writer : SpecDumpWriter) : SpecDumpWriter :=
  writer.bulletGroup key fun writer => dumpItem shown.conv (dumpItems shown.items writer)

/-- `TypedSpec::dumpOne`, with `AliasedField::dump` and `LedgerSelectorField::dump`. -/
def dumpOne (writer : SpecDumpWriter) (shown : ShownField Input) : SpecDumpWriter :=
  match shown.field with
  | .bound field => shown.dump field.key writer
  | .aliased alternateKey field => shown.dump alternateKey (shown.dump field.key writer)
  | .ledgerSelector _ =>
      (writer.bulletGroup "ledger_hash" fun writer => writer.bullet "uint256Hex" id).bulletGroup
        "ledger_index" fun writer =>
          writer.bullet "uint32 or shortcut (validated/current/closed)" id
  | .unbound field => dumpFieldSpec (.mk field.key shown.items) writer

end ShownField

/-- `TypedSpec::dump`. -/
def ShownSpec.dump [InputAggregate Input] (shown : ShownSpec Input) (writer : SpecDumpWriter) :
    SpecDumpWriter :=
  accumulate ShownField.key shown.fields ShownField.dumpOne writer

/-- The key of the subfield. -/
def DumpFieldSpec.key : DumpFieldSpec → String
  | .mk key _ => key

/-- `dumpRpcSpec`. -/
def dumpRpcSpec (fields : List DumpFieldSpec) (writer : SpecDumpWriter) : SpecDumpWriter :=
  accumulate DumpFieldSpec.key fields (fun writer field => dumpFieldSpec field writer) writer

end RpcSpec.Dsl
