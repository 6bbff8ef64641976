import RpcSpec.Dsl.Separation
import RpcSpec.Handlers.Normalization
set_option autoImplicit false

/-!
# The fields of a handler, each by itself

No field of a handler writes under a key that another reads.  So a handler does with a
request what its fields do with it one by one, and it may list them in another order.  Where
two are bound to one member, as `ident` and `account` of `account_info` are, the one behind
has the last word, and these two have to stay in order.

`requests_separate` and `fields_movable` are the two results, each for every handler,
version and server; that the fields are independent is decided on their keys.
-/

namespace RpcSpec.Handlers

open RpcSpec.Dsl RpcSpec.Foundation

section

variable [Build] [LibXrpl]

/-- A handler accepts and refuses a request, fills its `Input` and rewrites the request as its
fields do, each given the request by itself. -/
theorem requests_separate (handler : HandlerSpec) (hmem : handler ∈ handlerSpecs) (root : Json) :
    handler.spec.FieldByField root :=
  TypedSpec.fieldByField (handlerSpecs_normalize handler hmem).independent root

/-- A handler with fields moved past such as are bound to other members accepts the same
requests, with the same `Input` and rewritten in the same way, and gives the same warnings. -/
theorem fields_movable (handler : HandlerSpec) (hmem : handler ∈ handlerSpecs)
    (spec : TypedSpec handler.Input)
    (h : Reorder Field.MembersCommute (effectiveFields handler.spec.fields)
      (effectiveFields spec.fields)) : handler.spec.SameButOrder spec :=
  TypedSpec.sameButOrder_of_reorder (handlerSpecs_normalize handler hmem).independent h

end

namespace Tx

/-- A request with one field of the five. -/
theorem requests_separate_ctid :
    @TypedSpec.FieldByField _ .clio hexLib _ (@kInputSpecV1 .clio hexLib) (ctidRequest "c0ffee") :=
  @requests_separate .clio hexLib ⟨"tx", @kInputSpecV1 .clio hexLib⟩
    (List.mem_of_getElem? (i := 38) rfl) _

/-- The id of the place in the ledger before the hash, the other fields where they are. -/
def kCtidFirstSpec [Build] [LibXrpl] : TypedSpec Input where
  fields := (kInputSpecV1.fields.drop 1).take 1 ++ kInputSpecV1.fields.take 1 ++
    kInputSpecV1.fields.drop 2
  complete := by rfl

/-- The first field moves past a field of another key and member. -/
theorem kCtidFirstSpec_reorder [Build] [LibXrpl] :
    Reorder Field.MembersCommute (effectiveFields kInputSpecV1.fields)
      (effectiveFields kCtidFirstSpec.fields) := by
  have hkeys : (kInputSpecV1.fields.map Field.key).Nodup := by
    change ["transaction", "ctid", "binary", "min_ledger", "max_ledger"].Nodup
    decide
  have hkeys' : (kCtidFirstSpec.fields.map Field.key).Nodup := by
    change ["ctid", "transaction", "binary", "min_ledger", "max_ledger"].Nodup
    decide
  rw [effectiveFields_of_nodup hkeys, effectiveFields_of_nodup hkeys']
  exact .swap _ fun _ _ _ => rfl

/-- `tx` with its first two fields exchanged. -/
theorem kCtidFirstSpec_sameButOrder :
    @TypedSpec.SameButOrder _ .clio hexLib _ (@kInputSpecV1 .clio hexLib)
      (@kCtidFirstSpec .clio hexLib) :=
  @fields_movable .clio hexLib ⟨"tx", @kInputSpecV1 .clio hexLib⟩
    (List.mem_of_getElem? (i := 38) rfl) (@kCtidFirstSpec .clio hexLib)
    (@kCtidFirstSpec_reorder .clio hexLib)

end Tx

end RpcSpec.Handlers
