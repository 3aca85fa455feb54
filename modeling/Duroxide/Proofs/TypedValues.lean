import Duroxide.Model.TypedCodec

/-! # Typed values that come back

A string travels without its quotes and is first read as JSON. So it comes back unless it is itself the JSON text of
another value of its type: a quoted string as a string, or `null` as an optional string.
-/

namespace Duroxide.TypedCodec

variable {T In Out : Type}

/-- The values of a type have a string or null as their JSON form, and `serde_json` parses what it prints. -/
structure StringType (serde : Serde T) : Prop where
  form : ∀ value, serde.toValue value = .ok .null ∨ ∃ text, serde.toValue value = .ok (.string text)
  printsNull : ∃ text, serde.toString .null = .ok text
  fromValue : ∀ value form, serde.toValue value = .ok form → serde.fromValue form = .ok value
  fromStr : ∀ value form text, serde.toValue value = .ok form → serde.toString form = .ok text →
    serde.fromStr text = .ok value

/-- The value comes back. -/
def RoundTrips (serde : Serde T) (value : T) : Prop := (encode serde value >>= decode serde) = .ok value

/-- A string is not the JSON text of another value. -/
def Unmistakable (serde : Serde T) (value : T) : Prop :=
  ∀ text, serde.toValue value = .ok (.string text) → ∀ other, serde.fromStr text = .ok other → other = value

variable {serde : Serde T} {value : T}

/-- A raw string comes back exactly if reading it as JSON fails or gives the value. -/
theorem decode_string_iff (stringType : StringType serde) {text : String} (form : serde.toValue value = .ok (.string text)) :
    decode serde text = .ok value ↔ ∀ other, serde.fromStr text = .ok other → other = value := by
  unfold decode
  split
  · rename_i parsed found
    rw [found]
    constructor
    · exact fun same other given => (Except.ok.inj given).symm.trans (Except.ok.inj same)
    · exact fun only => congrArg Except.ok (only parsed rfl)
  · rename_i failed
    rw [stringType.fromValue value _ form, failed]
    exact iff_of_true rfl nofun

/-- A value comes back exactly if its string is not the JSON text of another value. -/
theorem roundTrips_iff (stringType : StringType serde) (value : T) : RoundTrips serde value ↔ Unmistakable serde value := by
  unfold RoundTrips Unmistakable
  obtain form | ⟨text, form⟩ := stringType.form value
  · obtain ⟨text, printed⟩ := stringType.printsNull
    have encoded : encode serde value = .ok text := by
      unfold encode
      rw [form]
      exact printed
    have parsed := stringType.fromStr value _ text form printed
    have decoded : decode serde text = .ok value := by
      unfold decode
      rw [parsed]
    rw [encoded, form]
    exact iff_of_true decoded nofun
  · have encoded : encode serde value = .ok text := by
      unfold encode
      rw [form]
    have whole := decode_string_iff stringType form
    rw [encoded, form]
    constructor
    · intro decoded same given
      obtain rfl := Value.string.inj (Except.ok.inj given)
      exact whole.mp decoded
    · exact fun only => whole.mpr (only text rfl)

theorem roundTrips_spec : RoundTrips serde value ↔ ∃ text, encode serde value = .ok text ∧ decode serde text = .ok value := by
  unfold RoundTrips
  cases encode serde value with
  | ok text => exact ⟨fun decoded => ⟨text, rfl, decoded⟩, fun ⟨_, same, decoded⟩ => Except.ok.inj same ▸ decoded⟩
  | error error => exact iff_of_false nofun nofun

/-- A typed activity returns what its function returns, if its input and output are unmistakable. -/
theorem scheduleTyped_registerTyped {serdeIn : Serde In} {serdeOut : Serde Out} (inputs : StringType serdeIn)
    (outputs : StringType serdeOut) {handler : In → Except String Out} {input : In} {output : Out}
    (returns : handler input = .ok output) (unmistakableInput : Unmistakable serdeIn input)
    (unmistakableOutput : Unmistakable serdeOut output) :
    scheduleTyped serdeIn serdeOut (registerTyped serdeIn serdeOut handler) input = .ok output := by
  obtain ⟨payload, encodedInput, decodedInput⟩ := roundTrips_spec.mp ((roundTrips_iff inputs input).mpr unmistakableInput)
  obtain ⟨result, encodedOutput, decodedOutput⟩ :=
    roundTrips_spec.mp ((roundTrips_iff outputs output).mpr unmistakableOutput)
  have handled : registerTyped serdeIn serdeOut handler payload = .ok result := by
    unfold registerTyped
    rw [decodedInput]
    change (handler input >>= encode serdeOut) = .ok result
    rw [returns]
    exact encodedOutput
  unfold scheduleTyped
  rw [encodedInput]
  change (registerTyped serdeIn serdeOut handler payload >>= decode serdeOut) = .ok output
  rw [handled]
  exact decodedOutput

/-! ## Strings and optional strings

String literals with the escapes of the quotation mark and the backslash; nothing else of JSON is needed to tell a
string, a quoted string and `null` apart.
-/

def quotationMark : Char := Char.ofNat 34

def backslash : Char := Char.ofNat 92

def escaped : List Char → List Char
  | [] => []
  | char :: rest =>
      if char = quotationMark ∨ char = backslash then backslash :: char :: escaped rest else char :: escaped rest

/-- Read up to the closing quotation mark, which ends the text. -/
def readEscaped : List Char → Option (List Char)
  | [] => none
  | char :: rest =>
      if char = quotationMark then if rest.isEmpty then some [] else none
      else if char = backslash then
        match rest with
        | [] => none
        | next :: rest =>
            if next = quotationMark ∨ next = backslash then (readEscaped rest).map (next :: ·) else none
      else (readEscaped rest).map (char :: ·)

theorem readEscaped_ordinary {char : Char} {rest : List Char} (ordinary : char ≠ quotationMark) (plain : char ≠ backslash) :
    readEscaped (char :: rest) = (readEscaped rest).map (char :: ·) := by
  rw [readEscaped.eq_def]
  simp only [if_neg ordinary, if_neg plain]

/-- What is escaped and closed is read back. -/
theorem readEscaped_escaped (chars : List Char) : readEscaped (escaped chars ++ [quotationMark]) = some chars := by
  induction chars with
  | nil => rfl
  | cons char rest ih =>
    unfold escaped
    by_cases special : char = quotationMark ∨ char = backslash
    · rw [if_pos special]
      simp only [List.cons_append, readEscaped, special, ih, Option.map_some, if_true]
      rfl
    · obtain ⟨ordinary, plain⟩ := not_or.mp special
      rw [if_neg special, List.cons_append, readEscaped_ordinary ordinary plain, ih]
      rfl

def printLiteral (text : String) : String := String.ofList (quotationMark :: (escaped text.toList ++ [quotationMark]))

def parseLiteral (text : String) : Option String :=
  match text.toList with
  | [] => none
  | char :: rest => if char = quotationMark then (readEscaped rest).map String.ofList else none

theorem parseLiteral_printLiteral (text : String) : parseLiteral (printLiteral text) = some text := by
  unfold parseLiteral printLiteral
  simp only [String.toList_ofList, if_true, readEscaped_escaped, Option.map_some, String.ofList_toList]

def printValue : Value → Except String String
  | .null => .ok "null"
  | .string text => .ok (printLiteral text)
  | _ => .error "not a string"

def stringSerde : Serde String where
  toValue text := .ok (.string text)
  fromValue
    | .string text => .ok text
    | _ => .error "invalid type"
  toString := printValue
  fromStr text := (parseLiteral text).elim (.error "expected a string") .ok

def optionSerde : Serde (Option String) where
  toValue
    | none => .ok .null
    | some text => .ok (.string text)
  fromValue
    | .null => .ok none
    | .string text => .ok (some text)
    | _ => .error "invalid type"
  toString := printValue
  fromStr text := if text = "null" then .ok none else (parseLiteral text).elim (.error "expected a string") (.ok ∘ some)

theorem stringType_stringSerde : StringType stringSerde where
  form text := .inr ⟨text, rfl⟩
  printsNull := ⟨_, rfl⟩
  fromValue text form same := by
    obtain rfl := Except.ok.inj same
    rfl
  fromStr text form printed same prints := by
    obtain rfl := Except.ok.inj same
    obtain rfl := Except.ok.inj prints
    simp only [stringSerde, parseLiteral_printLiteral, Option.elim_some]

theorem printLiteral_ne_null (text : String) : printLiteral text ≠ "null" := by
  intro same
  have chars := congrArg String.toList same
  rw [printLiteral, String.toList_ofList] at chars
  exact absurd (List.cons.inj chars).1 (by decide)

theorem stringType_optionSerde : StringType optionSerde where
  form
    | none => .inl rfl
    | some text => .inr ⟨text, rfl⟩
  printsNull := ⟨_, rfl⟩
  fromValue value form same := by
    cases value <;> (obtain rfl := Except.ok.inj same; rfl)
  fromStr value form printed same prints := by
    cases value with
    | none =>
      obtain rfl := Except.ok.inj same
      obtain rfl := Except.ok.inj prints
      rfl
    | some text =>
      obtain rfl := Except.ok.inj same
      obtain rfl := Except.ok.inj prints
      simp only [optionSerde, printLiteral_ne_null, parseLiteral_printLiteral, if_false, Option.elim_some,
        Function.comp_apply]

/-- A plain word comes back, as a string and as an optional string. -/
theorem roundTrips_iff_word : RoundTrips stringSerde "abc" ∧ RoundTrips optionSerde (some "abc") := by
  constructor
  · apply (roundTrips_iff stringType_stringSerde "abc").mpr
    intro text form other parsed
    obtain rfl := Value.string.inj (Except.ok.inj form)
    cases parsed
  · apply (roundTrips_iff stringType_optionSerde (some "abc")).mpr
    intro text form other parsed
    obtain rfl := Value.string.inj (Except.ok.inj form)
    cases parsed

/-- A quoted word loses its quotes, and the optional string `null` is lost. -/
theorem quoted_not_roundTrips : ¬ RoundTrips stringSerde (printLiteral "abc") ∧ ¬ RoundTrips optionSerde (some "null") := by
  constructor
  · intro comesBack
    have differ : printLiteral "abc" = "abc" := by
      have decoded : (encode stringSerde (printLiteral "abc") >>= decode stringSerde) = .ok "abc" := by
        change decode stringSerde (printLiteral "abc") = .ok "abc"
        simp only [decode, stringSerde, parseLiteral_printLiteral, Option.elim_some]
      exact Except.ok.inj (comesBack.symm.trans decoded)
    exact absurd differ (by decide)
  · intro comesBack
    have decoded : (encode optionSerde (some "null") >>= decode optionSerde) = .ok none := by rfl
    cases comesBack.symm.trans decoded

end Duroxide.TypedCodec
