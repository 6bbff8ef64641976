import RpcSpec.Dsl.Integers
import RpcSpec.Dsl.Modifiers
set_option autoImplicit false

/-!
# Numbers given as text

Two modifiers replace a string by the number it spells.  One parses a signed integer of 64
bits and checks the range afterwards, the other an unsigned one of 32 bits after an optional
plus sign.  Each accepts exactly its grammar, and they differ at most on strings with a sign.

`numbersFromText` says so over all texts: what each modifier accepts, the number it puts
in the place of the text, and on which texts the two differ.
-/

namespace RpcSpec.Dsl

open RpcSpec.Foundation FieldView Text

/-! ## The grammars -/

/-- Digits that spell a number of 32 bits, which a minus sign may precede where it is 0. -/
inductive ToNumberText : Bytes → Nat → Prop
  | digits {text : Bytes} {n : Nat} (h : Spells text n) (hn : n < 2 ^ 32) : ToNumberText text n
  | minusZero {text : Bytes} (h : Spells text 0) : ToNumberText (0x2d :: text) 0

/-- Digits that spell a number of 32 bits, which a plus sign may precede. -/
inductive LexicalUint32Text : Bytes → Nat → Prop
  | digits {text : Bytes} {n : Nat} (h : Spells text n) (hn : n < 2 ^ 32) :
      LexicalUint32Text text n
  | plus {text : Bytes} {n : Nat} (h : Spells text n) (hn : n < 2 ^ 32) :
      LexicalUint32Text (0x2b :: text) n

/-- The text starts with a sign. -/
def StartsWithSign (text : Bytes) : Prop := text.head? = some 0x2d ∨ text.head? = some 0x2b

/-! ## What is parsed -/

/-- A text that spells a number starts with a digit. -/
theorem Text.Spells.head {c : UInt8} {rest : Bytes} {n : Nat} (h : Spells (c :: rest) n) :
    isDigit c = true := h.digits c (List.mem_cons_self)

theorem fromCharsInt64_eq_some_nil_iff {text : Bytes} {val : Int} :
    fromCharsInt64 text = some (val, []) ↔
      (∃ n, Spells text n ∧ n < 2 ^ 63 ∧ val = n) ∨
        ∃ rest n, text = 0x2d :: rest ∧ Spells rest n ∧ n ≤ 2 ^ 63 ∧ val = -n := by
  unfold fromCharsInt64
  split
  · rename_i rest
    have hnot (n : Nat) : ¬ Spells (0x2d :: rest) n := fun h => absurd h.head (by decide)
    constructor
    · intro h
      obtain ⟨⟨n, stop⟩, hparse, heq⟩ := Option.map_eq_some_iff.mp h
      obtain ⟨rfl, rfl⟩ := Prod.mk.inj heq
      obtain ⟨hspells, hn⟩ := fromChars_eq_some_nil_iff.mp hparse
      exact .inr ⟨rest, n, rfl, hspells, hn, rfl⟩
    · rintro (⟨n, hspells, -⟩ | ⟨_, n, heq, hspells, hn, rfl⟩)
      · exact absurd hspells (hnot n)
      · obtain ⟨-, rfl⟩ := List.cons.inj heq
        rw [fromChars_eq_some_nil_iff.mpr ⟨hspells, hn⟩]
        rfl
  · rename_i hminus
    constructor
    · intro h
      obtain ⟨⟨n, stop⟩, hparse, heq⟩ := Option.map_eq_some_iff.mp h
      obtain ⟨rfl, rfl⟩ := Prod.mk.inj heq
      obtain ⟨hspells, hn⟩ := fromChars_eq_some_nil_iff.mp hparse
      exact .inl ⟨n, hspells, by omega, rfl⟩
    · rintro (⟨n, hspells, hn, rfl⟩ | ⟨rest, _, rfl, -⟩)
      · rw [fromChars_eq_some_nil_iff.mpr ⟨hspells, by omega⟩]
        rfl
      · exact absurd rfl (hminus rest)

/-- What the range check lets pass of the integers parsed. -/
theorem toNumberText_iff {text : Bytes} {n : Nat} :
    ToNumberText text n ↔ ∃ val : Int, fromCharsInt64 text = some (val, []) ∧
      0 ≤ val ∧ val ≤ (Text.uint32Max : Int) ∧ val = n := by
  constructor
  · rintro (⟨h, hn⟩ | ⟨h⟩)
    · refine ⟨n, fromCharsInt64_eq_some_nil_iff.mpr (.inl ⟨n, h, by omega, rfl⟩), by omega, ?_, rfl⟩
      change (n : Int) ≤ 4294967295
      omega
    · exact ⟨0, fromCharsInt64_eq_some_nil_iff.mpr (.inr ⟨_, 0, rfl, h, by omega, rfl⟩), le_rfl,
        by decide, rfl⟩
  · rintro ⟨val, hparse, hnonneg, hmax, rfl⟩
    have hmax : (n : Int) ≤ 4294967295 := hmax
    obtain ⟨m, h, -, hm⟩ | ⟨rest, m, rfl, h, -, hm⟩ := fromCharsInt64_eq_some_nil_iff.mp hparse
    · obtain rfl : n = m := Int.ofNat.inj hm
      exact .digits h (by omega)
    · obtain rfl : m = 0 := by omega
      obtain rfl : n = 0 := by omega
      exact .minusZero h

theorem lexicalUint32Text_iff {text : Bytes} {n : Nat} :
    LexicalUint32Text text n ↔ ∃ val, lexicalUint32 text = some val ∧ val.toNat = n := by
  have hparse {digits : Bytes} : (∃ val : UInt32,
      (parseWhole Text.uint32Max digits).map UInt32.ofNat = some val ∧ val.toNat = n) ↔
        Spells digits n ∧ n < 2 ^ 32 := by
    constructor
    · rintro ⟨val, hval, rfl⟩
      obtain ⟨m, hm, rfl⟩ := Option.map_eq_some_iff.mp hval
      obtain ⟨hspells, hmax⟩ := parseWhole_eq_some_iff.mp hm
      have hmax : m ≤ 4294967295 := hmax
      have hlt : m < 2 ^ 32 := by omega
      rw [UInt32.toNat_ofNat_of_lt' hlt]
      exact ⟨hspells, hlt⟩
    · rintro ⟨hspells, hn⟩
      have hmax : n ≤ Text.uint32Max := by
        change n ≤ 4294967295
        omega
      exact ⟨UInt32.ofNat n, by rw [parseWhole_eq_some_iff.mpr ⟨hspells, hmax⟩]; rfl,
        UInt32.toNat_ofNat_of_lt' hn⟩
  unfold lexicalUint32
  cases text with
  | nil =>
      refine Iff.trans ⟨?_, ?_⟩ hparse.symm
      · rintro (⟨h, hn⟩ | _)
        exact ⟨h, hn⟩
      · intro h
        exact .digits h.1 h.2
  | cons c rest =>
      by_cases hplus : c = 0x2b
      · subst hplus
        refine Iff.trans ⟨?_, ?_⟩ hparse.symm
        · rintro (⟨h, hn⟩ | ⟨h, hn⟩)
          · exact absurd h.head (by decide)
          · exact ⟨h, hn⟩
        · intro h
          exact .plus h.1 h.2
      · have hhead : ¬ (c :: rest).head? = some 0x2b := by simpa using hplus
        simp only [hhead, if_false]
        refine Iff.trans ⟨?_, ?_⟩ hparse.symm
        · rintro (⟨h, hn⟩ | ⟨h, hn⟩)
          · exact ⟨h, hn⟩
          · exact absurd rfl hplus
        · intro h
          exact .digits h.1 h.2

/-! ## What is written -/

/-- The number is put in the place of the string, from where it is read back. -/
def WritesNumber (modify : EStateM Failure FieldView Unit) (text : Bytes) (n : Nat) : Prop :=
  ∀ key, ∃ json, modify ⟨key, some (.string text)⟩ = .ok () ⟨key, some json⟩ ∧
    json.integer? = some (n : Int) ∧ FieldView.isUint32 ⟨key, some json⟩ = true ∧
    ∃ val, FieldView.asUint32 ⟨key, some json⟩ = .ok val ∧ val.toNat = n

/-- The string is refused and stays. -/
def RefusesText (modify : EStateM Failure FieldView Unit) (text : Bytes) : Prop :=
  ∀ key, ∃ status, modify ⟨key, some (.string text)⟩ =
    .error (.error status) ⟨key, some (.string text)⟩

/-- A grammar whose texts spell one number of 32 bits each. -/
structure NumberGrammar (Grammar : Bytes → Nat → Prop) : Prop where
  unique : ∀ text n m, Grammar text n → Grammar text m → n = m
  lt : ∀ text n, Grammar text n → n < 2 ^ 32

/-- The modifier accepts exactly the texts of the grammar, each as the number it spells. -/
structure ReadsExactly (modify : EStateM Failure FieldView Unit)
    (Grammar : Bytes → Nat → Prop) : Prop where
  writes : ∀ text n, WritesNumber modify text n ↔ Grammar text n
  refuses : ∀ text, RefusesText modify text ↔ ∀ n, ¬ Grammar text n

/-- What a modifier of strings has to do for it. -/
theorem readsExactly_rewriteBy {newValue : FieldView → Parsed (Option Json)}
    {Grammar : Bytes → Nat → Prop} (store : Nat → Json) (hgrammar : NumberGrammar Grammar)
    (hstore : ∀ n, n < 2 ^ 32 → (store n).integer? = some (n : Int))
    (hnew : ∀ key text,
      (∃ n, Grammar text n ∧ newValue ⟨key, some (.string text)⟩ = .ok (some (store n))) ∨
        (∀ n, ¬ Grammar text n) ∧
          ∃ status, newValue ⟨key, some (.string text)⟩ = .error (.error status)) :
    ReadsExactly (rewriteBy newValue) Grammar := by
  have hpresent (key : String) (text : Bytes) :
      FieldView.present ⟨key, some (.string text)⟩ = true := rfl
  refine ⟨fun text n => ⟨fun h => ?_, fun h key => ?_⟩,
    fun text => ⟨fun h n hn => ?_, fun h key => ?_⟩⟩
  · obtain ⟨json, hrun, hinteger, -⟩ := h ""
    rw [rewriteBy_run] at hrun
    obtain ⟨m, hm, hvalue⟩ | ⟨-, status, hvalue⟩ := hnew "" text
    · simp only [hvalue, hpresent, if_true] at hrun
      obtain rfl : store m = json := by simpa using hrun
      rw [hstore m (hgrammar.lt text m hm)] at hinteger
      obtain rfl : m = n := Int.ofNat.inj (Option.some.inj hinteger)
      exact hm
    · rw [hvalue] at hrun
      cases hrun
  · obtain ⟨m, hm, hvalue⟩ | ⟨hnone, -⟩ := hnew key text
    · obtain rfl := hgrammar.unique text n m h hm
      have hlt := hgrammar.lt text n h
      obtain ⟨hnumber, hread⟩ : FieldView.isUint32 ⟨key, some (store n)⟩ = true ∧ _ :=
        asUint32_of_integer (hstore n hlt) hlt
      refine ⟨store n, ?_, hstore n hlt, hnumber, _, hread, UInt32.toNat_ofNat_of_lt' hlt⟩
      simp only [rewriteBy_run, hvalue, hpresent, if_true]
    · exact absurd h (hnone n)
  · obtain ⟨status, hrun⟩ := h ""
    rw [rewriteBy_run] at hrun
    obtain ⟨m, -, hvalue⟩ | ⟨hnone, -⟩ := hnew "" text
    · simp only [hvalue, hpresent, if_true] at hrun
      cases hrun
    · exact hnone n hn
  · obtain ⟨n, hn, -⟩ | ⟨-, status, hvalue⟩ := hnew key text
    · exact absurd hn (h n)
    · exact ⟨status, by rw [rewriteBy_run, hvalue]⟩

/-! ## The two modifiers -/

theorem toNumberText_grammar : NumberGrammar ToNumberText where
  unique text n m h h' := by
    obtain ⟨val, hval, -, -, rfl⟩ := toNumberText_iff.mp h
    obtain ⟨val', hval', -, -, rfl⟩ := toNumberText_iff.mp h'
    rw [hval] at hval'
    exact Int.ofNat.inj (Prod.mk.inj (Option.some.inj hval')).1
  lt text n h := by
    rcases h with ⟨-, hn⟩ | -
    · exact hn
    · decide

theorem lexicalUint32Text_grammar : NumberGrammar LexicalUint32Text where
  unique text n m h h' := by
    obtain ⟨val, hval, rfl⟩ := lexicalUint32Text_iff.mp h
    obtain ⟨val', hval', rfl⟩ := lexicalUint32Text_iff.mp h'
    rw [Option.some.inj (hval.symm.trans hval')]
  lt text n h := by rcases h with ⟨-, hn⟩ | ⟨-, hn⟩ <;> exact hn

/-- Neither digits nor a minus sign is a point. -/
theorem ToNumberText.no_point {text : Bytes} {n : Nat} (h : ToNumberText text n) :
    text.contains 0x2e = false := by
  rw [List.contains_eq_mem, decide_eq_false_iff_not]
  intro hmem
  rcases h with ⟨h, -⟩ | ⟨h⟩
  · exact h.isDigit_of_mem hmem (by decide)
  · rcases List.mem_cons.mp hmem with heq | hmem
    · exact absurd heq (by decide)
    · exact h.isDigit_of_mem hmem (by decide)

theorem toNumber_readsExactly : ReadsExactly ToNumberModifier.modify ToNumberText := by
  refine readsExactly_rewriteBy (fun n => .int64 (Int64.ofInt n)) toNumberText_grammar
    (fun n hn => ?_) fun key text => ?_
  · exact congrArg some (Int64.toInt_ofInt_of_le (by omega) (by omega))
  · have hstring : FieldView.isString ⟨key, some (.string text)⟩ = true := rfl
    have hread : FieldView.asString ⟨key, some (.string text)⟩ = .ok text := rfl
    by_cases h : ∃ n, ToNumberText text n
    · obtain ⟨n, hn⟩ := h
      obtain ⟨val, hval, hnonneg, hmax, rfl⟩ := toNumberText_iff.mp hn
      refine .inl ⟨n, hn, ?_⟩
      have hbounds : (decide ((n : Int) < 0) || decide ((Text.uint32Max : Int) < n)) = false := by
        simpa using hmax
      change (rejectIf (text.contains 0x2e) _ >>= fun _ => _ : Parsed (Option Json)) = _
      rw [hn.no_point, hval]
      change (rejectIf (_ || _) _ >>= fun _ => _ : Parsed (Option Json)) = _
      rw [hbounds]
      rfl
    · refine .inr ⟨fun n hn => h ⟨n, hn⟩, ?_⟩
      change ∃ status, (rejectIf (text.contains 0x2e) _ >>= fun _ => _ : Parsed (Option Json)) = _
      cases text.contains 0x2e with
      | true => exact ⟨_, rfl⟩
      | false =>
          rcases hval : Text.fromCharsInt64 text with _ | ⟨val, _ | ⟨next, rest⟩⟩
          case some.nil =>
            have hout : (decide (val < 0) || decide ((Text.uint32Max : Int) < val)) = true := by
              refine Bool.not_eq_false _ |>.mp fun hin => h ⟨val.toNat, ?_⟩
              rw [Bool.or_eq_false_iff, decide_eq_false_iff_not, decide_eq_false_iff_not] at hin
              exact toNumberText_iff.mpr ⟨val, hval, by omega, by omega, by omega⟩
            change ∃ status, (rejectIf (_ || _) _ >>= fun _ => _ : Parsed (Option Json)) = _
            rw [hout]
            exact ⟨_, rfl⟩
          all_goals exact ⟨_, rfl⟩

theorem lexicalUint32_readsExactly :
    ReadsExactly LexicalUint32Modifier.modify LexicalUint32Text := by
  refine readsExactly_rewriteBy (fun n => .ofUint32 (UInt32.ofNat n))
    lexicalUint32Text_grammar (fun n hn => ?_) fun key text => ?_
  · rw [Json.integer?_ofUint32, UInt32.toNat_ofNat_of_lt' hn]
  · change (∃ n, LexicalUint32Text text n ∧ (do
        let val ← orReject (lexicalUint32 text) XrpldError.rpcInvalidParams
        pure (some (.ofUint32 val)) : Parsed (Option Json)) = _) ∨ _ ∧ ∃ status, (do
        let val ← orReject (lexicalUint32 text) XrpldError.rpcInvalidParams
        pure (some (.ofUint32 val)) : Parsed (Option Json)) = _
    cases hval : lexicalUint32 text with
    | some val =>
        refine .inl ⟨val.toNat, lexicalUint32Text_iff.mpr ⟨val, hval, rfl⟩, ?_⟩
        rw [UInt32.ofNat_toNat]
        rfl
    | none =>
        refine .inr ⟨?_, _, rfl⟩
        intro n hn
        obtain ⟨val, hval', -⟩ := lexicalUint32Text_iff.mp hn
        rw [hval] at hval'
        cases hval'

/-- Without a sign the two grammars are the same. -/
theorem toNumberText_iff_lexical {text : Bytes} (hsign : ¬ StartsWithSign text) (n : Nat) :
    ToNumberText text n ↔ LexicalUint32Text text n := by
  constructor
  · rintro (⟨h, hn⟩ | -)
    · exact .digits h hn
    · exact absurd (.inl rfl) hsign
  · rintro (⟨h, hn⟩ | -)
    · exact .digits h hn
    · exact absurd (.inr rfl) hsign

/-- The modifiers do the same with a string: both write the number, or both refuse. -/
structure AgreeOnText (text : Bytes) : Prop where
  writes : ∀ n, WritesNumber ToNumberModifier.modify text n ↔
    WritesNumber LexicalUint32Modifier.modify text n
  refuses : RefusesText ToNumberModifier.modify text ↔
    RefusesText LexicalUint32Modifier.modify text

/-- Each modifier accepts exactly its grammar, and they differ at most on a sign. -/
structure NumbersFromText : Prop where
  toNumber : ReadsExactly ToNumberModifier.modify ToNumberText
  lexicalUint32 : ReadsExactly LexicalUint32Modifier.modify LexicalUint32Text
  agree : ∀ text, ¬ StartsWithSign text → AgreeOnText text

theorem numbersFromText : NumbersFromText where
  toNumber := toNumber_readsExactly
  lexicalUint32 := lexicalUint32_readsExactly
  agree text hsign := by
    constructor
    · intro n
      rw [toNumber_readsExactly.writes, lexicalUint32_readsExactly.writes]
      exact toNumberText_iff_lexical hsign n
    · rw [toNumber_readsExactly.refuses, lexicalUint32_readsExactly.refuses]
      exact forall_congr' fun n => not_congr (toNumberText_iff_lexical hsign n)

/-! ## Numbers given as such or as text -/

section Given

variable {Grammar : Bytes → Nat → Prop} {modify : EStateM Failure FieldView Unit} {key : String}
  {json : Json}

/-- The number a value gives: an integer itself, or what a string spells. -/
inductive NumberGiven (Grammar : Bytes → Nat → Prop) : Json → Nat → Prop
  | integer {json : Json} {n : Nat} (h : json.integer? = some (n : Int)) :
      NumberGiven Grammar json n
  | text {text : Bytes} {n : Nat} (h : Grammar text n) : NumberGiven Grammar (.string text) n

theorem NumberGrammar.given_unique (hgrammar : NumberGrammar Grammar) {n m : Nat}
    (h : NumberGiven Grammar json n) (h' : NumberGiven Grammar json m) : n = m := by
  cases h with
  | integer h =>
      cases h' with
      | integer h' => exact Int.ofNat.inj (Option.some.inj (h.symm.trans h'))
      | text => cases h
  | text h =>
      cases h' with
      | integer h' => cases h'
      | text h' => exact hgrammar.unique _ n m h h'

/-- Where the value is a string the grammar decides. -/
theorem numberGiven_string {text : Bytes} {n : Nat} :
    NumberGiven Grammar (.string text) n ↔ Grammar text n := by
  constructor
  · rintro (h | h)
    · cases h
    · exact h
  · exact .text

theorem numberGiven_of_uint32? {n : UInt32} (h : json.uint32? = some n) :
    NumberGiven Grammar json n.toNat := .integer (Json.integer?_of_uint32? h)

/-- What is neither an unsigned integer nor a string gives no number of 32 bits. -/
theorem not_numberGiven (huint : FieldView.isUint32 ⟨key, some json⟩ = false)
    (hstring : FieldView.isString ⟨key, some json⟩ = false) (n : UInt32) :
    ¬ NumberGiven Grammar json n.toNat := by
  rintro (h | h)
  · rw [(asUint32_of_integer h n.toNat_lt).1] at huint
    cases huint
  · cases hstring

/-- A modifier of strings leaves the number a value gives, and refuses other strings. -/
theorem ReadsExactly.given_cases (hreads : ReadsExactly modify Grammar)
    (hgrammar : NumberGrammar Grammar)
    (hothers : ∀ v : FieldView, v.isString = false → modify v = .ok () v)
    (htype : FieldView.isUint32 ⟨key, some json⟩ = true ∨
      FieldView.isString ⟨key, some json⟩ = true) :
    (∃ (n : UInt32) (json' : Json), NumberGiven Grammar json n.toNat ∧
      modify ⟨key, some json⟩ = .ok () ⟨key, some json'⟩ ∧ json'.uint32? = some n) ∨
    (∀ n, ¬ NumberGiven Grammar json n) ∧ leftState modify ⟨key, some json⟩ = none := by
  cases hstring : FieldView.isString ⟨key, some json⟩ with
  | false =>
      obtain ⟨n, hn, -⟩ | ⟨-, huint⟩ := uint32_cases key json
      · exact .inl ⟨n, json, numberGiven_of_uint32? hn, hothers _ hstring, hn⟩
      · simp [huint, hstring] at htype
  | true =>
      obtain ⟨text, rfl⟩ := isString_eq_true_iff.mp hstring
      by_cases h : ∃ n, Grammar text n
      · obtain ⟨n, hn⟩ := h
        have hlt := hgrammar.lt text n hn
        obtain ⟨json', hrun, hinteger, -⟩ := (hreads.writes text n).mpr hn key
        refine .inl ⟨UInt32.ofNat n, json', ?_, hrun, Json.uint32?_eq_some hinteger hlt⟩
        rw [UInt32.toNat_ofNat_of_lt' hlt]
        exact .text hn
      · have hnone : ∀ n, ¬ Grammar text n := fun n hn => h ⟨n, hn⟩
        obtain ⟨status, hrun⟩ := (hreads.refuses text).mpr hnone key
        exact .inr ⟨fun n hn => hnone n (numberGiven_string.mp hn), by rw [leftState, hrun]⟩

theorem toNumber_of_not_string {v : FieldView} (h : v.isString = false) :
    ToNumberModifier.modify v = .ok () v := by
  have hskip : (!v.present || !v.isString) = true := by simp [h]
  rw [ToNumberModifier.modify, rewriteBy_run, ToNumberModifier.newValue, if_pos hskip]
  rfl

theorem lexicalUint32_of_not_string {v : FieldView} (h : v.isString = false) :
    LexicalUint32Modifier.modify v = .ok () v := by
  have hskip : (!v.present || !v.isString) = true := by simp [h]
  rw [LexicalUint32Modifier.modify, rewriteBy_run, LexicalUint32Modifier.newValue, if_pos hskip]
  rfl

/-- What a modifier of strings leaves of a value that is an unsigned integer or a string. -/
def leavesNumber (modify : EStateM Failure FieldView Unit) (v : FieldView) : Option FieldView :=
  (TypeIs.verify [.uint32, .string] v).toOption.bind fun _ => leftState modify v

theorem ReadsExactly.leavesNumber_cases (hreads : ReadsExactly modify Grammar)
    (hgrammar : NumberGrammar Grammar)
    (hothers : ∀ v : FieldView, v.isString = false → modify v = .ok () v) (key : String)
    (json : Json) :
    (∃ (n : UInt32) (json' : Json), NumberGiven Grammar json n.toNat ∧
      leavesNumber modify ⟨key, some json⟩ = some ⟨key, some json'⟩ ∧ json'.uint32? = some n) ∨
    (∀ n : UInt32, ¬ NumberGiven Grammar json n.toNat) ∧
      leavesNumber modify ⟨key, some json⟩ = none := by
  have hverify : TypeIs.verify [.uint32, .string] ⟨key, some json⟩ =
      rejectIf (!(FieldView.isUint32 ⟨key, some json⟩ || FieldView.isString ⟨key, some json⟩))
        XrpldError.rpcInvalidParams := by
    simp [TypeIs.verify, FieldView.present, FieldView.is]
  cases htype : FieldView.isUint32 ⟨key, some json⟩ || FieldView.isString ⟨key, some json⟩ with
  | true =>
      have hleaves : leavesNumber modify ⟨key, some json⟩ = leftState modify ⟨key, some json⟩ := by
        rw [leavesNumber, hverify, htype]
        rfl
      rw [hleaves]
      obtain ⟨n, json', hn, hrun, hjson'⟩ | ⟨hnone, hrun⟩ :=
        hreads.given_cases hgrammar hothers (Bool.or_eq_true_iff.mp htype)
      · exact .inl ⟨n, json', hn, leftState_eq_some_iff.mpr hrun, hjson'⟩
      · exact .inr ⟨fun n => hnone n.toNat, hrun⟩
  | false =>
      obtain ⟨huint, hstring⟩ := Bool.or_eq_false_iff.mp htype
      refine .inr ⟨not_numberGiven huint hstring, ?_⟩
      rw [leavesNumber, hverify, htype]
      rfl

end Given

end RpcSpec.Dsl
