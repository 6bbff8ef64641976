import RpcSpec.Dsl.NumberTexts
import RpcSpec.Dsl.Verdicts
import RpcSpec.Handlers.Markets
set_option autoImplicit false

/-!
# Lists of oracles

What a `get_aggregate_price` request names: the oracles, one for each element of the array,
and the number of values to trim.  On Clio a modifier checks the elements and rewrites their
document ids before the converter reads them; on xrpld the converter reads what is given, and
keeps what is wrong with the first element that stands for no oracle.

`oracles_read` collects all of it: what is accepted, what is read, the first element that
is wrong and how the request is rewritten. The loops are taken element by element, with
the elements already done as the invariant.
-/

namespace RpcSpec.Handlers.GetAggregatePrice

open RpcSpec.Dsl RpcSpec.Foundation FieldView XrpldError

variable [Build]

/-! ## What is given -/

/-- The strings that spell a document id. -/
def DocumentIdText (text : Bytes) (n : Nat) : Prop :=
  if kIsClioBuild then ToNumberText text n else LexicalUint32Text text n

/-- The strings that spell how much to trim. -/
def TrimText (text : Bytes) (n : Nat) : Prop := kIsXrpldBuild = true ∧ LexicalUint32Text text n

variable [LibXrpl]

/-- The account a string is decoded to. -/
def AccountText (text : Bytes) (id : AccountID) : Prop :=
  if kIsClioBuild then
    AccountBase58Validator.Accepts text ∧ accountFromStringStrict text = some id
  else LibXrpl.parseBase58AccountID text = some id ∧ id ≠ 0

/-- The element is an object that gives both members of the oracle. -/
structure GivesOracle (elem : Json) (oracle : Oracle) : Prop where
  documentId : ∃ docId, elem.member? "oracle_document_id" = some docId ∧
    NumberGiven DocumentIdText docId oracle.documentId.toNat
  account : ∃ text, elem.member? "account" = some (.string text) ∧
    AccountText text oracle.account

/-- The element stands for an oracle. -/
def Acceptable (elem : Json) : Prop := ∃ oracle, GivesOracle elem oracle

/-- The element is an object with both keys. -/
def hasBothKeys (elem : Json) : Bool :=
  (elem.member? "oracle_document_id").isSome && (elem.member? "account").isSome

/-- What is wrong with an element that stands for no oracle. -/
def whatIsWrong (elem : Json) : DeferredError :=
  if hasBothKeys elem then .invalid else .malformed

section Keys

variable {elem : Json}

/-- An acceptable element names a document and an account. -/
theorem Acceptable.hasBothKeys (h : Acceptable elem) : hasBothKeys elem = true := by
  obtain ⟨oracle, ⟨docId, hdocId, -⟩, text, haccount, -⟩ := h
  simp [GetAggregatePrice.hasBothKeys, hdocId, haccount]

omit [Build] [LibXrpl] in
/-- What the check for the two keys finds. -/
theorem members_of_hasBothKeys (h : hasBothKeys elem = true) : ∃ docId account,
    elem.member? "oracle_document_id" = some docId ∧ elem.member? "account" = some account := by
  obtain ⟨hdoc, hacc⟩ := Bool.and_eq_true_iff.mp h
  obtain ⟨docId, hdocId⟩ := Option.isSome_iff_exists.mp hdoc
  obtain ⟨account, haccount⟩ := Option.isSome_iff_exists.mp hacc
  exact ⟨docId, account, hdocId, haccount⟩

omit [Build] [LibXrpl] in
theorem missing_eq (key : String) (elem : Json) :
    (!(child ⟨key, some elem⟩ "oracle_document_id").present ||
      !(child ⟨key, some elem⟩ "account").present) = !hasBothKeys elem :=
  (Bool.not_and _ _).symm

omit [Build] [LibXrpl] in
/-- A member of the element, as the view shows it. -/
theorem child_of_member? {key childKey : String} {json : Json}
    (h : elem.member? childKey = some json) :
    child ⟨key, some elem⟩ childKey = ⟨childKey, some json⟩ := congrArg (FieldView.mk _) h

end Keys

/-! ## xrpld: one element -/

namespace OraclesConverter

variable {key : String}

omit [Build] [LibXrpl] in
/-- The id is read in the lexical spelling, and what is no id is no error. -/
theorem documentId_eq (key : String) (json : Json) : ∃ number,
    documentId ⟨key, some json⟩ = .ok number ∧
      ∀ n, number = some n ↔ NumberGiven LexicalUint32Text json n.toNat := by
  obtain ⟨m, hm, huint, has⟩ | ⟨-, huint⟩ := uint32_cases key json
  · have hgiven : NumberGiven LexicalUint32Text json m.toNat := numberGiven_of_uint32? hm
    refine ⟨some m, by rw [documentId, huint, has]; rfl, fun n => ⟨?_, fun hn => ?_⟩⟩
    · rintro ⟨⟩
      exact hgiven
    · rw [UInt32.toNat_inj.mp (lexicalUint32Text_grammar.given_unique hgiven hn)]
  cases hstring : isString ⟨key, some json⟩ with
  | false =>
      refine ⟨none, by rw [documentId, huint, hstring]; rfl, fun n => ⟨nofun, fun hn => ?_⟩⟩
      exact absurd hn (not_numberGiven huint hstring n)
  | true =>
      obtain ⟨text, rfl⟩ := isString_eq_true_iff.mp hstring
      refine ⟨lexicalUint32 text, rfl, fun n => ?_⟩
      rw [numberGiven_string, lexicalUint32Text_iff]
      simp [UInt32.toNat_inj]

omit [Build] in
theorem addressOf_eq (key : String) (json : Json) : ∃ id?, addressOf ⟨key, some json⟩ = .ok id? ∧
    ∀ id, id? = some id ↔ ∃ text, json = .string text ∧
      LibXrpl.parseBase58AccountID text = some id := by
  cases json with
  | string text => exact ⟨_, rfl, fun id => by simp⟩
  | _ => exact ⟨none, rfl, fun id => by simp⟩

/-- What the loop makes of an element with both keys. -/
theorem parseOracle_xrpld (hxrpld : kIsClioBuild = false) {key : String} {elem docId account : Json}
    (hdocId : elem.member? "oracle_document_id" = some docId)
    (haccount : elem.member? "account" = some account) {number : Option UInt32}
    {id? : Option AccountID}
    (hnumber : documentId ⟨"oracle_document_id", some docId⟩ = .ok number)
    (hid : addressOf ⟨"account", some account⟩ = .ok id?) :
    parseOracle ⟨key, some elem⟩ =
      .ok ((number.bind fun n => (id?.filter (· ≠ 0)).map (Oracle.mk n)).elim (.error .invalid)
        .ok) := by
  have hbuild : kIsXrpldBuild = true := by simp [kIsXrpldBuild, hxrpld]
  simp only [parseOracle, child_of_member? hdocId, child_of_member? haccount, hbuild, if_true,
    hnumber, hid]
  rcases number with _ | n
  · rfl
  rcases id? with _ | id
  · rfl
  change (if id = 0 then _ else _ : Parsed (Deferred Oracle)) = _
  by_cases hzero : id = 0
  · subst hzero
    rfl
  · have hfilter : (some id).filter (· ≠ 0) = some id :=
      (Option.filter_some).trans (if_pos (decide_eq_true hzero))
    rw [if_neg hzero, hfilter]
    rfl

theorem givesOracle_xrpld (hxrpld : kIsClioBuild = false) {elem docId account : Json}
    (hdocId : elem.member? "oracle_document_id" = some docId)
    (haccount : elem.member? "account" = some account) {number : Option UInt32}
    {id? : Option AccountID}
    (hnumber : ∀ n, number = some n ↔ NumberGiven LexicalUint32Text docId n.toNat)
    (hid : ∀ id, id? = some id ↔ ∃ text, account = .string text ∧
      LibXrpl.parseBase58AccountID text = some id) (oracle : Oracle) :
    GivesOracle elem oracle ↔
      (number.bind fun n => (id?.filter (· ≠ 0)).map (Oracle.mk n)) = some oracle := by
  have hgrammar : DocumentIdText = LexicalUint32Text := by
    funext text n
    simp [DocumentIdText, hxrpld]
  have htext (text : Bytes) (id : AccountID) : AccountText text id ↔
      LibXrpl.parseBase58AccountID text = some id ∧ id ≠ 0 := by
    simp [AccountText, hxrpld]
  constructor
  · rintro ⟨⟨docId', hdocId', hn⟩, text, htext', hid'⟩
    obtain rfl := Option.some.inj (hdocId.symm.trans hdocId')
    obtain ⟨hparse, hnonzero⟩ := (htext _ _).mp hid'
    have hsome := (hid oracle.account).mpr
      ⟨text, Option.some.inj (haccount.symm.trans htext'), hparse⟩
    rw [(hnumber oracle.documentId).mpr (hgrammar ▸ hn), hsome, Option.bind_some,
      Option.filter_some, if_pos (decide_eq_true hnonzero)]
    rfl
  · intro h
    obtain ⟨n, hn, hmap⟩ := Option.bind_eq_some_iff.mp h
    obtain ⟨id, hfilter, rfl⟩ := Option.map_eq_some_iff.mp hmap
    obtain ⟨hsome, hnonzero⟩ := Option.filter_eq_some_iff.mp hfilter
    obtain ⟨text, rfl, hparse⟩ := (hid id).mp hsome
    exact ⟨⟨docId, hdocId, hgrammar ▸ (hnumber n).mp hn⟩, text, haccount,
      (htext _ _).mpr ⟨hparse, of_decide_eq_true hnonzero⟩⟩

/-- An element gives an oracle, or the error says why it gives none. -/
theorem parseOracle_cases (hxrpld : kIsClioBuild = false) (key : String) (elem : Json) :
    (∃ oracle, GivesOracle elem oracle ∧ parseOracle ⟨key, some elem⟩ = .ok (.ok oracle)) ∨
    ¬ Acceptable elem ∧ parseOracle ⟨key, some elem⟩ = .ok (.error (whatIsWrong elem)) := by
  have hbuild : kIsXrpldBuild = true := by simp [kIsXrpldBuild, hxrpld]
  cases hboth : hasBothKeys elem with
  | false =>
      refine .inr ⟨fun h => ?_, ?_⟩
      · rw [h.hasBothKeys] at hboth
        cases hboth
      · simp only [parseOracle, missing_eq, hbuild, hboth, Bool.not_false, if_true, whatIsWrong]
        rfl
  | true =>
      obtain ⟨docId, account, hdocId, haccount⟩ := members_of_hasBothKeys hboth
      obtain ⟨number, hnumber, hn⟩ := documentId_eq "oracle_document_id" docId
      obtain ⟨id?, hid, hid?⟩ := addressOf_eq "account" account
      have hgives := givesOracle_xrpld hxrpld hdocId haccount hn hid?
      rw [parseOracle_xrpld hxrpld hdocId haccount hnumber hid, whatIsWrong, hboth, if_pos rfl]
      cases horacle : number.bind fun n => (id?.filter (· ≠ 0)).map (Oracle.mk n) with
      | some oracle => exact .inl ⟨oracle, (hgives oracle).mpr horacle, rfl⟩
      | none =>
          refine .inr ⟨?_, rfl⟩
          rintro ⟨oracle, h⟩
          rw [hgives, horacle] at h
          cases h

/-! ## Clio: one element -/

/-- Where the number and the account are there the converter reads them. -/
theorem parseOracle_clio (hclio : kIsClioBuild = true) {key : String} {elem docId : Json}
    {text : Bytes} {n : UInt32} {id : AccountID}
    (hdocId : elem.member? "oracle_document_id" = some docId) (hn : docId.uint32? = some n)
    (haccount : elem.member? "account" = some (.string text))
    (hid : accountFromStringStrict text = some id) :
    parseOracle ⟨key, some elem⟩ = .ok (.ok ⟨n, id⟩) := by
  have hbuild : kIsXrpldBuild = false := by simp [kIsXrpldBuild, hclio]
  simp only [parseOracle, child_of_member? hdocId, child_of_member? haccount, hbuild,
    Bool.false_eq_true, if_false]
  change (orReject (accountFromStringStrict text) rpcInvalidParams >>= _ : Parsed _) = _
  rw [hid]
  change (asUint32 _ >>= _ : Parsed _) = _
  rw [(asUint32_of_uint32? hn).2]
  rfl

end OraclesConverter

/-- The validator accepts a string of a base58 address, and nothing else. -/
theorem verifyAccount_cases (key : String) (json : Json) :
    (∃ text, json = .string text ∧ AccountBase58Validator.Accepts text ∧
      AccountBase58Validator.verify ⟨key, some json⟩ = .ok ()) ∨
    (∀ text, json = .string text → ¬ AccountBase58Validator.Accepts text) ∧
      (AccountBase58Validator.verify ⟨key, some json⟩).toOption = none := by
  cases json with
  | string text =>
      have hverify : AccountBase58Validator.verify ⟨key, some (.string text)⟩ =
          rejectIf (!(parseBase58Wrapper LibXrpl.parseBase58AccountID text).any (· ≠ 0))
            kMalformedAddress := rfl
      have haccepts : (parseBase58Wrapper LibXrpl.parseBase58AccountID text).any (· ≠ 0) = true ↔
          AccountBase58Validator.Accepts text := by
        simp [AccountBase58Validator.Accepts, Option.any_eq_true]
      rw [hverify]
      cases hany : (parseBase58Wrapper LibXrpl.parseBase58AccountID text).any (· ≠ 0) with
      | true => exact .inl ⟨text, rfl, haccepts.mp hany, rfl⟩
      | false =>
          refine .inr ⟨fun text' htext' h => ?_, rfl⟩
          obtain rfl := Json.string.inj htext'
          rw [haccepts.mpr h] at hany
          cases hany
  | _ =>
      refine .inr ⟨fun text htext => ?_, rfl⟩
      cases htext

/-- The check of one element, step by step, by what it leaves. -/
theorem leftState_modifyOracle {elem : FieldView} : leftState modifyOracle elem =
    (rejectIf (!elem.isObject) rpcOracleMalformed).toOption.bind fun _ =>
      (rejectIf (!(elem.child "oracle_document_id").present || !(elem.child "account").present)
        rpcOracleMalformed).toOption.bind fun _ =>
      (leavesNumber ToNumberModifier.modify (elem.child "oracle_document_id")).bind fun docIdView =>
        (AccountBase58Validator.verify (elem.child "account")).toOption.map fun _ =>
          elem.putChild "oracle_document_id" docIdView := by
  have hlift (x : MaybeError) (f : FieldView → Option FieldView) :
      (leftState (monadLift x : EStateM Failure FieldView Unit) elem).bind f =
        x.toOption.bind fun _ => f elem := by
    rw [leftState_monadLift, Option.bind_map]
    rfl
  change leftState (monadLift (rejectIf (!elem.isObject) _) >>= fun _ => _) elem = _
  rw [leftState_seq, hlift]
  refine congrArg _ (funext fun _ => ?_)
  change leftState (monadLift (rejectIf _ _) >>= fun _ => _) elem = _
  rw [leftState_seq, hlift]
  refine congrArg _ (funext fun _ => ?_)
  change leftState (monadLift (TypeIs.verify _ _) >>= fun _ => onChild _ _ >>= fun _ => _) elem = _
  rw [leftState_seq, hlift, leftState_seq, leavesNumber, Option.bind_assoc]
  refine congrArg _ (funext fun _ => ?_)
  rw [onChild, leftState_zoom, Option.bind_map]
  refine congrArg _ (funext fun docIdView => ?_)
  change leftState (monadLift (Except.mapError _ _)) _ = _
  rw [leftState_monadLift]
  cases AccountBase58Validator.verify (elem.child "account") <;> rfl

/-- On Clio an element gives the oracle that is read of what the modifier leaves of it, or the
modifier refuses it. -/
theorem modifyOracle_cases (hclio : kIsClioBuild = true) (key : String) (elem : Json) :
    (∃ oracle elem', GivesOracle elem oracle ∧
      leftState modifyOracle ⟨key, some elem⟩ = some ⟨key, some elem'⟩ ∧
      OraclesConverter.parseOracle ⟨key, some elem'⟩ = .ok (.ok oracle)) ∨
    ¬ Acceptable elem ∧ leftState modifyOracle ⟨key, some elem⟩ = none := by
  have hgrammar : DocumentIdText = ToNumberText := by
    funext text n
    simp [DocumentIdText, hclio]
  have htext (text : Bytes) (id : AccountID) : AccountText text id ↔
      AccountBase58Validator.Accepts text ∧ accountFromStringStrict text = some id := by
    simp [AccountText, hclio]
  rw [leftState_modifyOracle, missing_eq]
  cases hboth : hasBothKeys elem with
  | false =>
      refine .inr ⟨fun h => ?_, ?_⟩
      · rw [h.hasBothKeys] at hboth
        cases hboth
      · cases isObject ⟨key, some elem⟩ <;> rfl
  | true =>
      obtain ⟨docId, account, hdocId, haccount⟩ := members_of_hasBothKeys hboth
      have hobject : isObject ⟨key, some elem⟩ = true := by
        cases elem with
        | object members => rfl
        | _ => cases hdocId
      rw [hobject, child_of_member? hdocId, child_of_member? haccount]
      change (∃ oracle elem', _ ∧ Option.bind _ _ = _ ∧ _) ∨ _ ∧ Option.bind _ _ = _
      obtain ⟨n, docId', hn, hleft, hdocId'⟩ | ⟨hnone, hleft⟩ :=
        toNumber_readsExactly.leavesNumber_cases toNumberText_grammar
          (fun _ => toNumber_of_not_string) "oracle_document_id" docId
      · obtain ⟨text, rfl, haccepts, hverify⟩ | ⟨hrefuses, hverify⟩ :=
          verifyAccount_cases "account" account
        · obtain ⟨base58, hbase58, hnonzero⟩ := haccepts
          obtain ⟨id, hid⟩ := Option.isSome_iff_exists.mp
            (accountFromStringStrict_isSome_of_base58 (by rw [hbase58, Option.isSome_some]))
          refine .inl ⟨⟨n, id⟩, elem.putChild (some docId') "oracle_document_id",
            ⟨⟨docId, hdocId, hgrammar ▸ hn⟩, text, haccount, ?_⟩, ?_, ?_⟩
          · exact (htext text id).mpr ⟨⟨base58, hbase58, hnonzero⟩, hid⟩
          · rw [hleft, hverify]
            rfl
          · refine OraclesConverter.parseOracle_clio hclio (Json.member?_putChild_same ?_) hdocId'
              ((Json.member?_putChild_ne (by decide) _ _).trans haccount) hid
            rw [hdocId]
            rfl
        · refine .inr ⟨?_, by rw [hleft, hverify]; rfl⟩
          rintro ⟨oracle, -, text, haccount', hid⟩
          exact hrefuses text (Option.some.inj (haccount.symm.trans haccount'))
            ((htext text _).mp hid).1
      · refine .inr ⟨?_, by rw [hleft]; rfl⟩
        rintro ⟨oracle, ⟨docId', hdocId', hn⟩, -⟩
        obtain rfl := Option.some.inj (hdocId.symm.trans hdocId')
        exact hnone oracle.documentId (hgrammar ▸ hn)

/-! ## The loops -/

namespace OraclesConverter

/-- The oracle that a turn of the loop reads of an element. -/
def TurnReads (key : String) (elem : Json) (oracle : Oracle) : Prop :=
  parseOracle ⟨key, some elem⟩ = .ok (.ok oracle)

variable {key : String} {elems : List Json} {oracles : List Oracle}

/-- Turns that read their oracles leave the loop at the elements after them. -/
theorem parseOracles_append (h : List.Forall₂ (TurnReads key) elems oracles)
    (after : List FieldView) (result : List Oracle) :
    parseOracles (elems.map (fun elem => ⟨key, some elem⟩) ++ after) result =
      parseOracles after (result ++ oracles) := by
  induction h generalizing result with
  | nil => rw [List.map_nil, List.nil_append, List.append_nil]
  | @cons elem oracle elems oracles helem _ ih =>
      rw [List.map_cons, List.cons_append, parseOracles, helem]
      change parseOracles _ (result ++ [oracle]) = _
      rw [ih, List.append_assoc, List.singleton_append]

/-- The loop returns what its turns collect. -/
theorem parse_of_turns (h : List.Forall₂ (TurnReads key) elems oracles) :
    oraclesConv.parse ⟨key, some (.array elems)⟩ = .ok (.ok oracles) := by
  change parseOracles (elements _) [] = _
  rw [elements_array, ← List.append_nil (List.map _ _), parseOracles_append h]
  rfl

/-- The first turn that reads no oracle decides. -/
theorem parse_of_turns_error (h : List.Forall₂ (TurnReads key) elems oracles) {elem : Json}
    {why : DeferredError} (herror : parseOracle ⟨key, some elem⟩ = .ok (.error why))
    (after : List Json) :
    oraclesConv.parse ⟨key, some (.array (elems ++ elem :: after))⟩ = .ok (.error why) := by
  change parseOracles (elements _) [] = _
  rw [elements_array, List.map_append, List.map_cons, parseOracles_append h, parseOracles, herror]
  rfl

/-! ### xrpld -/

/-- On xrpld every acceptable element has its turn. -/
theorem exists_turns (hxrpld : kIsClioBuild = false) (key : String)
    (h : ∀ elem ∈ elems, Acceptable elem) : ∃ oracles,
      List.Forall₂ GivesOracle elems oracles ∧ List.Forall₂ (TurnReads key) elems oracles := by
  induction elems with
  | nil => exact ⟨[], .nil, .nil⟩
  | cons elem rest ih =>
      obtain ⟨oracles, hgives, hturns⟩ := ih fun elem helem => h elem (by simp [helem])
      obtain ⟨oracle, hgive, hturn⟩ | ⟨hnot, -⟩ := parseOracle_cases hxrpld key elem
      · exact ⟨oracle :: oracles, .cons hgive hgives, .cons hturn hturns⟩
      · exact absurd (h elem (by simp)) hnot

/-- What is wrong with the first element that is not acceptable is kept. -/
theorem parse_of_first (hxrpld : kIsClioBuild = false) (key : String) {before after : List Json}
    {elem : Json} (hbefore : ∀ earlier ∈ before, Acceptable earlier) (helem : ¬ Acceptable elem) :
    oraclesConv.parse ⟨key, some (.array (before ++ elem :: after))⟩ =
      .ok (.error (whatIsWrong elem)) := by
  obtain ⟨oracles, -, hturns⟩ := exists_turns hxrpld key hbefore
  obtain ⟨oracle, hgives, -⟩ | ⟨-, herror⟩ := parseOracle_cases hxrpld key elem
  · exact absurd ⟨oracle, hgives⟩ helem
  · exact parse_of_turns_error hturns herror after

/-- A list is read of elements that are all acceptable. -/
theorem parse_cases (hxrpld : kIsClioBuild = false) (key : String) (elems : List Json) :
    (∃ oracles, List.Forall₂ GivesOracle elems oracles ∧
      oraclesConv.parse ⟨key, some (.array elems)⟩ = .ok (.ok oracles)) ∨
    ∃ why, oraclesConv.parse ⟨key, some (.array elems)⟩ = .ok (.error why) := by
  classical
  cases hfirst : elems.find? fun elem => decide (¬ Acceptable elem) with
  | none =>
      have hall : ∀ elem ∈ elems, Acceptable elem := by simpa using List.find?_eq_none.mp hfirst
      obtain ⟨oracles, hgives, hturns⟩ := exists_turns hxrpld key hall
      exact .inl ⟨oracles, hgives, parse_of_turns hturns⟩
  | some elem =>
      obtain ⟨helem, before, after, rfl, hbefore⟩ := List.find?_eq_some_iff_append.mp hfirst
      exact .inr ⟨_, parse_of_first hxrpld key (by simpa using hbefore) (by simpa using helem)⟩

end OraclesConverter

/-! ### Clio -/

/-- What a turn of the modifier leaves of an element. -/
def TurnLeaves (key : String) (elem elem' : Json) : Prop :=
  leftState modifyOracle ⟨key, some elem⟩ = some ⟨key, some elem'⟩

/-- What the modifier leaves of elements gives the oracles of the elements. -/
theorem exists_oracles (hclio : kIsClioBuild = true) {key : String} {elems elems' : List Json}
    (h : List.Forall₂ (TurnLeaves key) elems elems') : ∃ oracles,
      List.Forall₂ GivesOracle elems oracles ∧
        List.Forall₂ (OraclesConverter.TurnReads key) elems' oracles := by
  induction h with
  | nil => exact ⟨[], .nil, .nil⟩
  | @cons elem elem' _ _ helem _ ih =>
      obtain ⟨oracles, hgives, hturns⟩ := ih
      obtain ⟨oracle, left, hgive, hleft, hturn⟩ | ⟨-, hnone⟩ := modifyOracle_cases hclio key elem
      · obtain ⟨⟩ := hleft.symm.trans helem
        exact ⟨oracle :: oracles, .cons hgive hgives, .cons hturn hturns⟩
      · cases hnone.symm.trans helem

/-- On Clio every acceptable element passes its check. -/
theorem exists_left (hclio : kIsClioBuild = true) (key : String) {elems : List Json}
    (h : ∀ elem ∈ elems, Acceptable elem) :
    ∃ elems', List.Forall₂ (TurnLeaves key) elems elems' := by
  induction elems with
  | nil => exact ⟨[], .nil⟩
  | cons elem rest ih =>
      obtain ⟨elems', hturns⟩ := ih fun elem helem => h elem (by simp [helem])
      obtain ⟨_, elem', -, hleft, -⟩ | ⟨hnot, -⟩ := modifyOracle_cases hclio key elem
      · exact ⟨elem' :: elems', .cons hleft hturns⟩
      · exact absurd (h elem (by simp)) hnot

/-! ## The field of the oracles -/

/-- The elements of an array that is neither empty nor too long. -/
def oracleElements? : Json → Option (List Json)
  | .array elems => if 1 ≤ elems.length ∧ elems.length ≤ kOraclesMax then some elems else none
  | _ => none

omit [Build] [LibXrpl] in
/-- The lists that are long enough and not too long. -/
theorem oracleElements?_eq_some_iff {json : Json} {elems : List Json} :
    oracleElements? json = some elems ↔
      json = .array elems ∧ 1 ≤ elems.length ∧ elems.length ≤ kOraclesMax := by
  cases json with
  | array items =>
      rw [oracleElements?, Option.ite_none_right_eq_some, Option.some_inj, Json.array.injEq]
      constructor
      · rintro ⟨h, rfl⟩
        exact ⟨rfl, h⟩
      · rintro ⟨rfl, h⟩
        exact ⟨h, rfl⟩
  | _ => simp [oracleElements?]

/-- On xrpld the items look at the length of the list alone. -/
theorem leaves_oraclesItems_xrpld (hxrpld : kIsClioBuild = false) (key : String) (json : Json) :
    leaves oraclesItems ⟨key, some json⟩ = (oracleElements? json).map fun elems =>
      ⟨key, some (.array elems)⟩ := by
  have hitems : leaves oraclesItems = leaves ([required, type [.array], minArrayLength 1,
      maxArrayLength kOraclesMax] : List (Item DeferredOracles)) := by
    funext v
    rw [leaves, oraclesItems, runProcessors_cons, runProcessors_ifServerXrpld (.inr rfl) hxrpld,
      runProcessors_append, runProcessors_not_ifServerClio hxrpld, ← runProcessors_append,
      ← runProcessors_cons, ← leaves]
    simp only [List.append_nil, leaves_cons, leaves_withCustomError]
  rw [hitems]
  cases json with
  | array elems =>
      have hmin : (minArrayLength 1 : Item DeferredOracles).leaves ⟨key, some (.array elems)⟩ =
          if decide (elems.length < 1) then none else some ⟨key, some (.array elems)⟩ :=
        leaves_requirement_rejectIf rfl
      have hmax : (maxArrayLength kOraclesMax : Item DeferredOracles).leaves
            ⟨key, some (.array elems)⟩ =
          if decide (kOraclesMax < elems.length) then none else some ⟨key, some (.array elems)⟩ :=
        leaves_requirement_rejectIf rfl
      change leaves [minArrayLength 1, maxArrayLength kOraclesMax] _ = _
      rw [leaves_cons, hmin, oracleElements?]
      by_cases hlo : elems.length < 1
      · have hnot : ¬ (1 ≤ elems.length ∧ elems.length ≤ kOraclesMax) := by omega
        rw [decide_eq_true hlo, if_neg hnot]
        rfl
      · rw [decide_eq_false hlo]
        change leaves [maxArrayLength kOraclesMax] _ = _
        rw [leaves_cons, hmax]
        by_cases hhi : kOraclesMax < elems.length
        · have hnot : ¬ (1 ≤ elems.length ∧ elems.length ≤ kOraclesMax) := by omega
          rw [decide_eq_true hhi, if_neg hnot]
          rfl
        · have hbounds : 1 ≤ elems.length ∧ elems.length ≤ kOraclesMax := by omega
          rw [decide_eq_false hhi, if_pos hbounds]
          rfl
  | _ => rfl

/-- On Clio they look at the elements, and rewrite them. -/
theorem leaves_oraclesItems_clio (hclio : kIsClioBuild = true) (key : String) (json : Json) :
    leaves oraclesItems ⟨key, some json⟩ = kOraclesValidator.leaves ⟨key, some json⟩ := by
  have hitems : runProcessors oraclesItems =
      runProcessors ([required, kOraclesValidator] : List (Item DeferredOracles)) := by
    rw [oraclesItems, runProcessors_cons, runProcessors_not_ifServerXrpld hclio,
      runProcessors_ifServerClio (.inl rfl) hclio, List.append_nil, ← runProcessors_cons]
  rw [leaves, hitems, ← leaves, leaves_cons]
  change leaves [kOraclesValidator] _ = _
  rw [leaves_singleton]

/-- The validator runs its loop on such an array. -/
theorem leaves_kOraclesValidator (key : String) (json : Json) :
    kOraclesValidator.leaves ⟨key, some json⟩ = (oracleElements? json).bind fun elems =>
      leftState (forM (List.range' 0 elems.length) fun i => onElement i modifyOracle)
        ⟨key, some (.array elems)⟩ := by
  change leftState (monadLift (rejectIf _ rpcOracleMalformed) >>= fun _ => forM _ _) _ = _
  rw [leftState_seq, leftState_monadLift, Option.bind_map]
  cases json with
  | array elems =>
      have hsize : arraySize ⟨key, some (.array elems)⟩ = elems.length := rfl
      have hbad : (elems.length == 0 || decide (kOraclesMax < elems.length)) =
          !decide (1 ≤ elems.length ∧ elems.length ≤ kOraclesMax) := by
        rw [Bool.eq_iff_iff]
        simp only [Bool.or_eq_true_iff, beq_iff_eq, decide_eq_true_eq, Bool.not_eq_true',
          decide_eq_false_iff_not]
        omega
      rw [oracleElements?, hsize, List.range_eq_range']
      change (rejectIf (elems.length == 0 || decide (kOraclesMax < elems.length)) _).toOption.bind
        _ = _
      rw [hbad]
      by_cases h : 1 ≤ elems.length ∧ elems.length ≤ kOraclesMax
      · rw [decide_eq_true h, if_pos h]
        rfl
      · rw [decide_eq_false h, if_neg h]
        rfl
  | _ => rfl

/-- An element that gives an oracle is acceptable. -/
theorem acceptable_of_gives {elems : List Json} {oracles : List Oracle}
    (h : List.Forall₂ GivesOracle elems oracles) : ∀ elem ∈ elems, Acceptable elem := by
  induction h with
  | nil => nofun
  | cons hgive _ ih => exact List.forall_mem_cons.mpr ⟨⟨_, hgive⟩, ih⟩

/-- What the validator of Clio accepts the converter reads. -/
theorem parse_of_validated (hclio : kIsClioBuild = true) {key : String} {json : Json}
    {v' : FieldView} (h : kOraclesValidator.leaves ⟨key, some json⟩ = some v') :
    ∃ elems oracles, oracleElements? json = some elems ∧
      List.Forall₂ GivesOracle elems oracles ∧ oraclesConv.parse v' = .ok (.ok oracles) := by
  rw [leaves_kOraclesValidator] at h
  obtain ⟨elems, helems, hloop⟩ := Option.bind_eq_some_iff.mp h
  have hturn (elem : Json) (left : FieldView)
      (hleft : leftState modifyOracle ⟨key, some elem⟩ = some left) :
      ∃ elem', left = ⟨key, some elem'⟩ := by
    obtain ⟨_, elem', -, hleft', -⟩ | ⟨-, hnone⟩ := modifyOracle_cases hclio key elem
    · exact ⟨elem', Option.some.inj (hleft.symm.trans hleft')⟩
    · cases hnone.symm.trans hleft
  obtain ⟨elems', rfl, hturns⟩ := leftState_forM_onElement [] hturn hloop
  obtain ⟨oracles, hgives, hreads⟩ := exists_oracles hclio hturns
  exact ⟨elems, oracles, helems, hgives, OraclesConverter.parse_of_turns hreads⟩

/-- A list of acceptable elements passes as a whole. -/
theorem exists_validated (hclio : kIsClioBuild = true) (key : String) {json : Json}
    {elems : List Json} (helems : oracleElements? json = some elems)
    (h : ∀ elem ∈ elems, Acceptable elem) :
    ∃ v', kOraclesValidator.leaves ⟨key, some json⟩ = some v' := by
  obtain ⟨elems', hturns⟩ := exists_left hclio key h
  rw [leaves_kOraclesValidator, helems]
  exact ⟨_, leftState_forM_onElement_of_forall [] hturns⟩

/-- The list is set by its own field alone. -/
theorem oracles_setBy : kInputSpec.SetBy (·.oracles)
    (field "oracles" ⟨"oracles", fun out v => { out with oracles := v }⟩ oraclesItems
      oraclesConv) :=
  .of_index 1 rfl rfl rfl (by simp [kInputSpec])

theorem oraclesItems_skips (root : Json) : skipsField oraclesItems root = false := by
  simp [skipsField, oraclesItems, required, ifServerXrpld, ifServerClio, Item.skips, skipsAny,
    withCustomError, type, minArrayLength, maxArrayLength, kOraclesValidator, customModifier]

theorem present_of_leaves {v v' : FieldView} (h : leaves oraclesItems v = some v') :
    v'.present = v.present := by
  have hmeet := oraclesItems_meet v trivial
  rw [SafeRun, leftState_eq_some_iff.mp h] at hmeet
  exact hmeet.1.2

/-- First the items, and then the converter on what they leave. -/
theorem resolve_oracles (json : Json) : resolve oraclesItems oraclesConv ⟨"oracles", some json⟩ =
    (leaves oraclesItems ⟨"oracles", some json⟩).bind fun v' =>
      some <$> (oraclesConv.parse v').toOption := by
  rw [resolve]
  cases hleaves : leaves oraclesItems ⟨"oracles", some json⟩ with
  | none => rfl
  | some v' => rw [Option.bind_some, Option.bind_some, present_of_leaves hleaves]; rfl

/-- What the field makes of a request is what it makes of the list. -/
theorem oracles_decide : Decides kInputSpec "oracles" (·.oracles) fun json? =>
    json?.bind fun json => (leaves oraclesItems ⟨"oracles", some json⟩).bind fun v' =>
      (oraclesConv.parse v').toOption := by
  have hdecides := decides_of_field id (.error .missing) oracles_setBy oraclesItems_skips
    (fun _ _ => rfl) (.inr ⟨rfl, rfl⟩)
  refine hdecides.congr fun json? => ?_
  cases json? with
  | none => rfl
  | some json =>
      rw [resolve_oracles, Option.map_bind, Option.bind_some]
      refine congrArg _ (funext fun v' => ?_)
      change ((oraclesConv.parse v').toOption.map some).map _ = _
      rw [Option.map_map]
      exact Option.map_id'

/-- A list that is read is the list of what the elements give. -/
theorem elements_of_leaves {json : Json} {v' : FieldView} {oracles : List Oracle}
    (hleaves : leaves oraclesItems ⟨"oracles", some json⟩ = some v')
    (hparse : oraclesConv.parse v' = .ok (.ok oracles)) :
    ∃ elems, oracleElements? json = some elems ∧ List.Forall₂ GivesOracle elems oracles := by
  cases hbuild : kIsClioBuild with
  | true =>
      rw [leaves_oraclesItems_clio hbuild] at hleaves
      obtain ⟨elems, oracles', helems, hgives, hparse'⟩ := parse_of_validated hbuild hleaves
      obtain rfl := Except.ok.inj (Except.ok.inj (hparse'.symm.trans hparse))
      exact ⟨elems, helems, hgives⟩
  | false =>
      rw [leaves_oraclesItems_xrpld hbuild] at hleaves
      obtain ⟨elems, helems, rfl⟩ := Option.map_eq_some_iff.mp hleaves
      obtain ⟨oracles', hgives, hparse'⟩ | ⟨why, herror⟩ :=
        OraclesConverter.parse_cases hbuild "oracles" elems
      · obtain rfl := Except.ok.inj (Except.ok.inj (hparse'.symm.trans hparse))
        exact ⟨elems, helems, hgives⟩
      · cases herror.symm.trans hparse

/-- The arrays that are accepted: on Clio those of acceptable elements. -/
theorem exists_leaves_iff {json : Json} :
    (∃ v', leaves oraclesItems ⟨"oracles", some json⟩ = some v' ∧ Returns (oraclesConv.parse v')) ↔
      ∃ elems, oracleElements? json = some elems ∧
        (kIsClioBuild = true → ∀ elem ∈ elems, Acceptable elem) := by
  cases hbuild : kIsClioBuild with
  | true =>
      rw [leaves_oraclesItems_clio hbuild]
      constructor
      · rintro ⟨v', hleaves, -⟩
        obtain ⟨elems, oracles, helems, hgives, -⟩ := parse_of_validated hbuild hleaves
        exact ⟨elems, helems, fun _ => acceptable_of_gives hgives⟩
      · rintro ⟨elems, helems, hall⟩
        obtain ⟨v', hleaves⟩ := exists_validated hbuild "oracles" helems (hall rfl)
        obtain ⟨-, oracles, -, -, hparse⟩ := parse_of_validated hbuild hleaves
        exact ⟨v', hleaves, _, hparse⟩
  | false =>
      rw [leaves_oraclesItems_xrpld hbuild]
      constructor
      · rintro ⟨v', hleaves, -⟩
        obtain ⟨elems, helems, -⟩ := Option.map_eq_some_iff.mp hleaves
        exact ⟨elems, helems, nofun⟩
      · rintro ⟨elems, helems, -⟩
        refine ⟨⟨"oracles", some (.array elems)⟩, by rw [helems]; rfl, ?_⟩
        obtain ⟨oracles, -, hparse⟩ | ⟨why, hparse⟩ :=
          OraclesConverter.parse_cases hbuild "oracles" elems
        · exact ⟨_, hparse⟩
        · exact ⟨_, hparse⟩

theorem oracles_of_parse {root root' : Json} {input : Input}
    (hrun : kInputSpec.parse root = .ok input root') : ∃ json v',
      root.member? "oracles" = some json ∧
        leaves oraclesItems ⟨"oracles", some json⟩ = some v' ∧
        oraclesConv.parse v' = .ok input.oracles := by
  obtain ⟨json, hjson, hverdict⟩ :=
    Option.bind_eq_some_iff.mp (oracles_decide.reads root input root' hrun)
  obtain ⟨v', hleaves, hparse⟩ := Option.bind_eq_some_iff.mp hverdict
  exact ⟨json, v', hjson, hleaves, toOption_eq_some_iff.mp hparse⟩

/-! ## The field of the values to trim -/

section Trim

variable {key : String} {json : Json}

omit [LibXrpl] in
/-- On xrpld a string is rewritten to the number it spells. -/
theorem leaves_numberItems_xrpld {α : Type} (hxrpld : kIsClioBuild = false) (key : String)
    (json : Json) : leaves (numberItems : List (Item α)) ⟨key, some json⟩ =
      leavesNumber LexicalUint32Modifier.modify ⟨key, some json⟩ := by
  have hitems : runProcessors (numberItems : List (Item α)) =
      runProcessors ([type [.uint32, .string], lexicalUint32Item] : List (Item α)) := by
    rw [numberItems, runProcessors_ifServerXrpld (.inr rfl) hxrpld, List.singleton_append,
      runProcessors_cons, runProcessors_not_ifServerClio hxrpld,
      runProcessors_ifServerXrpld (.inl rfl) hxrpld, ← runProcessors_cons]
    rfl
  rw [leaves, hitems, ← leaves, leaves_cons, type, leaves_requirement, Option.bind_map,
    leavesNumber]
  refine congrArg _ (funext fun _ => ?_)
  change leaves [lexicalUint32Item] _ = _
  rw [leaves_singleton]
  rfl

omit [LibXrpl] in
theorem leaves_numberItems_clio {α : Type} (hclio : kIsClioBuild = true) (key : String)
    (json : Json) : leaves (numberItems : List (Item α)) ⟨key, some json⟩ =
      json.uint32?.map fun _ => ⟨key, some json⟩ := by
  have hitems : runProcessors (numberItems : List (Item α)) =
      runProcessors ([type [.uint32]] : List (Item α)) := by
    rw [numberItems, runProcessors_not_ifServerXrpld hclio,
      runProcessors_ifServerClio (.inr rfl) hclio, List.singleton_append, runProcessors_cons,
      runProcessors_not_ifServerXrpld hclio, ← runProcessors_cons]
  rw [leaves, hitems, ← leaves, leaves_singleton, leaves_type_uint32]

omit [LibXrpl] in
theorem trimText_grammar : NumberGrammar TrimText where
  unique text n m h h' := lexicalUint32Text_grammar.unique text n m h.2 h'.2
  lt text n h := lexicalUint32Text_grammar.lt text n h.2

omit [LibXrpl] in
/-- The items leave the number that is given. -/
theorem numberItems_leave {α : Type} {v' : FieldView}
    (h : leaves (numberItems : List (Item α)) ⟨key, some json⟩ = some v') :
    ∃ (n : UInt32) (json' : Json), NumberGiven TrimText json n.toNat ∧ v' = ⟨key, some json'⟩ ∧
      json'.uint32? = some n := by
  cases hbuild : kIsClioBuild with
  | true =>
      rw [leaves_numberItems_clio hbuild] at h
      obtain ⟨n, hn, rfl⟩ := Option.map_eq_some_iff.mp h
      exact ⟨n, json, numberGiven_of_uint32? hn, rfl, hn⟩
  | false =>
      have hgrammar : TrimText = LexicalUint32Text := by
        funext text n
        simp [TrimText, kIsXrpldBuild, hbuild]
      rw [leaves_numberItems_xrpld hbuild] at h
      obtain ⟨n, json', hn, hleft, hjson'⟩ | ⟨-, hleft⟩ :=
        lexicalUint32_readsExactly.leavesNumber_cases lexicalUint32Text_grammar
          (fun _ => lexicalUint32_of_not_string) key json
      · exact ⟨n, json', hgrammar ▸ hn, Option.some.inj (h.symm.trans hleft), hjson'⟩
      · cases h.symm.trans hleft

omit [LibXrpl] in
/-- Within the bounds the narrower type holds the number. -/
theorem resolve_trim {value? : Option UInt8}
    (h : resolve (numberItems ++ [between 1 kTrimMax]) uint8Conv ⟨key, some json⟩ = some value?) :
    ∃ trim, value? = some trim ∧ NumberGiven TrimText json trim.toNat := by
  obtain ⟨v', hleaves, hread⟩ := Option.bind_eq_some_iff.mp h
  rw [leaves_append] at hleaves
  obtain ⟨v, hnumber, hbetween⟩ := Option.bind_eq_some_iff.mp hleaves
  obtain ⟨n, json', hn, rfl, hjson'⟩ := numberItems_leave hnumber
  rw [leaves_singleton, leaves_between, hjson'] at hbetween
  split at hbetween
  · cases hbetween
  rename_i hbounds
  obtain rfl := Option.some.inj hbetween
  have hconv : uint8Conv.parse ⟨key, some json'⟩ = .ok n.toUInt8 := by
    obtain ⟨huint, has⟩ := asUint32_of_uint32? hjson'
    change (rejectIf (!isUint32 _) _ >>= fun _ => UInt32.toUInt8 <$> asUint32 _) = _
    rw [huint, has]
    rfl
  have hlt : n.toNat < 256 := by
    have hmax : n ≤ kTrimMax := by
      simp only [Option.any_some, Bool.or_eq_true, decide_eq_true_eq, not_or] at hbounds
      exact UInt32.not_lt.mp hbounds.2
    have hmax : n.toNat ≤ 25 := UInt32.le_iff_toNat_le.mp hmax
    omega
  change some <$> (uint8Conv.parse ⟨key, some json'⟩).toOption = _ at hread
  rw [hconv] at hread
  refine ⟨n.toUInt8, (Option.some.inj hread).symm, ?_⟩
  rwa [UInt32.toNat_toUInt8, Nat.mod_eq_of_lt hlt]

end Trim

/-- The share is set by its own field alone. -/
theorem trim_setBy : kInputSpec.SetBy (·.trim)
    (field "trim" ⟨"trim", fun out v => { out with trim := some v }⟩
      (numberItems ++ [between 1 kTrimMax]) uint8Conv) :=
  .of_index 4 rfl rfl rfl (by simp [kInputSpec])

omit [LibXrpl] in
theorem trim_skips (root : Json) : skipsField (numberItems ++ [between 1 kTrimMax] :
    List (Item UInt8)) root = false := by
  simp [skipsField, numberItems, ifServerXrpld, ifServerClio, Item.skips, skipsAny, type,
    lexicalUint32Item, between]

/-! ## Requests -/

section Requests

variable {root root' json : Json} {input : Input} {elems : List Json}

/-- A list names the oracles of the elements in their order. -/
theorem listed_of_parse {oracles : List Oracle} (hrun : kInputSpec.parse root = .ok input root')
    (horacles : input.oracles = .ok oracles) :
    ∃ elems, root.member? "oracles" = some (.array elems) ∧ 1 ≤ elems.length ∧
      elems.length ≤ kOraclesMax ∧ List.Forall₂ GivesOracle elems oracles := by
  obtain ⟨json, v', hjson, hleaves, hparse⟩ := oracles_of_parse hrun
  rw [horacles] at hparse
  obtain ⟨elems, helems, hgives⟩ := elements_of_leaves hleaves hparse
  obtain ⟨rfl, hlo, hhi⟩ := oracleElements?_eq_some_iff.mp helems
  exact ⟨elems, hjson, hlo, hhi, hgives⟩

/-- The error kept is that of the first element that is not acceptable. -/
theorem deferred_of_parse (hxrpld : kIsClioBuild = false) {before after : List Json} {elem : Json}
    (hrun : kInputSpec.parse root = .ok input root')
    (hjson : root.member? "oracles" = some (.array (before ++ elem :: after)))
    (hbefore : ∀ earlier ∈ before, Acceptable earlier) (helem : ¬ Acceptable elem) :
    input.oracles = .error (whatIsWrong elem) := by
  obtain ⟨json, v', hjson', hleaves, hparse⟩ := oracles_of_parse hrun
  obtain rfl := Option.some.inj (hjson.symm.trans hjson')
  rw [leaves_oraclesItems_xrpld hxrpld] at hleaves
  obtain ⟨elems, helems, rfl⟩ := Option.map_eq_some_iff.mp hleaves
  obtain ⟨hsame, -⟩ := oracleElements?_eq_some_iff.mp helems
  rw [← hsame, OraclesConverter.parse_of_first hxrpld _ hbefore helem] at hparse
  exact (Except.ok.inj hparse).symm

/-- On Clio a request is not accepted with a bad element. -/
theorem acceptable_of_parse (hclio : kIsClioBuild = true)
    (hrun : kInputSpec.parse root = .ok input root')
    (hjson : root.member? "oracles" = some (.array elems)) : ∀ elem ∈ elems, Acceptable elem := by
  obtain ⟨json, v', hjson', hleaves, hparse⟩ := oracles_of_parse hrun
  obtain rfl := Option.some.inj (hjson.symm.trans hjson')
  obtain ⟨elems', helems, hall⟩ := exists_leaves_iff.mp ⟨v', hleaves, _, hparse⟩
  obtain ⟨hsame, -⟩ := oracleElements?_eq_some_iff.mp helems
  obtain rfl := Json.array.inj hsame
  exact hall hclio

/-- Where nothing else is wrong with the request, the list decides. -/
theorem parses_iff_of_othersPass (hothers : kInputSpec.OthersPass "oracles" root) :
    (∃ input root', kInputSpec.parse root = .ok input root') ↔
      ∃ elems, root.member? "oracles" = some (.array elems) ∧ 1 ≤ elems.length ∧
        elems.length ≤ kOraclesMax ∧ (kIsClioBuild = true → ∀ elem ∈ elems, Acceptable elem) := by
  rw [oracles_decide.accepts root hothers, Option.isSome_iff_exists]
  simp only [Option.bind_eq_some_iff, toOption_eq_some_iff]
  constructor
  · rintro ⟨oracles, json, hjson, v', hleaves, hparse⟩
    obtain ⟨elems, helems, hall⟩ := exists_leaves_iff.mp ⟨v', hleaves, _, hparse⟩
    obtain ⟨rfl, hlo, hhi⟩ := oracleElements?_eq_some_iff.mp helems
    exact ⟨elems, hjson, hlo, hhi, hall⟩
  · rintro ⟨elems, hjson, hlo, hhi, hall⟩
    obtain ⟨v', hleaves, oracles, hparse⟩ := exists_leaves_iff.mpr
      ⟨elems, oracleElements?_eq_some_iff.mpr ⟨rfl, hlo, hhi⟩, hall⟩
    exact ⟨oracles, .array elems, hjson, v', hleaves, hparse⟩

theorem trimmed_of_parse (hrun : kInputSpec.parse root = .ok input root')
    (hjson : root.member? "trim" = some json) :
    ∃ trim, input.trim = some trim ∧ ∀ n, NumberGiven TrimText json n ↔ n = trim.toNat := by
  have hverdict := (decides_of_field some none trim_setBy trim_skips (fun _ _ => rfl)
    (.inr ⟨rfl, rfl⟩)).reads root input root' hrun
  rw [hjson] at hverdict
  obtain ⟨value?, hresolve, hread⟩ := Option.map_eq_some_iff.mp hverdict
  obtain ⟨trim, rfl, hgiven⟩ := resolve_trim hresolve
  refine ⟨trim, hread.symm, fun n => ⟨fun hn => trimText_grammar.given_unique hn hgiven, ?_⟩⟩
  rintro rfl
  exact hgiven

end Requests

/-- What an accepted request names, and which requests are accepted. -/
structure OraclesRead : Prop where
  listed : ∀ root input root' oracles, kInputSpec.parse root = .ok input root' →
    input.oracles = .ok oracles → ∃ elems, root.member? "oracles" = some (.array elems) ∧
      1 ≤ elems.length ∧ elems.length ≤ kOraclesMax ∧ List.Forall₂ GivesOracle elems oracles
  deferred : kIsXrpldBuild = true → ∀ root input root' before elem after,
    kInputSpec.parse root = .ok input root' →
      root.member? "oracles" = some (.array (before ++ elem :: after)) →
        (∀ earlier ∈ before, Acceptable earlier) → ¬ Acceptable elem →
          input.oracles = .error (whatIsWrong elem)
  rejected : kIsClioBuild = true → ∀ root elems, root.member? "oracles" = some (.array elems) →
    (∃ elem ∈ elems, ¬ Acceptable elem) →
      ∃ failure root', kInputSpec.parse root = .error failure root'
  accepted : ∀ root, kInputSpec.OthersPass "oracles" root →
    ((∃ input root', kInputSpec.parse root = .ok input root') ↔
      ∃ elems, root.member? "oracles" = some (.array elems) ∧ 1 ≤ elems.length ∧
        elems.length ≤ kOraclesMax ∧ (kIsClioBuild = true → ∀ elem ∈ elems, Acceptable elem))
  converted : kIsClioBuild = true → ∀ key json v',
    kOraclesValidator.leaves ⟨key, some json⟩ = some v' →
      ∃ oracles, oraclesConv.parse v' = .ok (.ok oracles)
  trimmed : ∀ root input root' json, kInputSpec.parse root = .ok input root' →
    root.member? "trim" = some json → ∃ trim, input.trim = some trim ∧
      ∀ n, NumberGiven TrimText json n ↔ n = trim.toNat

/-- `get_aggregate_price`: an accepted list is read in order; on xrpld a bad element is a
deferred error and on Clio an error; which lists are accepted; and which number the trimmed
share is. -/
theorem oracles_read : OraclesRead where
  listed _ _ _ _ hrun horacles := listed_of_parse hrun horacles
  deferred hxrpld _ _ _ _ _ _ hrun hjson hbefore helem :=
    deferred_of_parse (by simpa [kIsXrpldBuild] using hxrpld) hrun hjson hbefore helem
  rejected hclio root elems hjson := by
    rintro ⟨elem, helem, hnot⟩
    cases hrun : kInputSpec.parse root with
    | error failure root' => exact ⟨failure, root', rfl⟩
    | ok input root' => exact absurd (acceptable_of_parse hclio hrun hjson elem helem) hnot
  accepted _ hothers := parses_iff_of_othersPass hothers
  converted hclio key json v' h := by
    obtain ⟨-, oracles, -, -, hparse⟩ := parse_of_validated hclio h
    exact ⟨oracles, hparse⟩
  trimmed _ _ _ _ hrun hjson := trimmed_of_parse hrun hjson

end RpcSpec.Handlers.GetAggregatePrice
