import Mathlib.Data.List.Nodup

/-! # JSON documents, and structs as objects

A codec carries the law that what it writes it reads back. The fields of a struct are codecs with names,
joined one by one, and their law is about every object that agrees with the written one on these names:
members may come in another order or between others, and a field whose absence reads as its value may be
missing. Numbers are integers.
-/

namespace Duroxide.Lib.Json

inductive Value where
  | null
  | bool (value : Bool)
  | number (value : Int)
  | string (text : String)
  | array (items : List Value)
  | object (members : List (String × Value))

abbrev Members := List (String × Value)

def Value.isNull : Value → Bool
  | .null => true
  | _ => false

/-- How a type is written and read, and the values that are read back. -/
structure Codec (T : Type) where
  encode : T → Value
  decode : Value → Option T
  Fits : T → Prop
  decode_encode : ∀ {value}, Fits value → decode (encode value) = some value
  fits_of_decode : ∀ {document value}, decode document = some value → Fits value

namespace Codec

variable {T U : Type}

theorem decode_encode_iff (codec : Codec T) {value : T} :
    codec.decode (codec.encode value) = some value ↔ codec.Fits value :=
  ⟨codec.fits_of_decode, codec.decode_encode⟩

def text : Codec String where
  encode := .string
  decode
    | .string text => some text
    | _ => none
  Fits _ := True
  decode_encode _ := rfl
  fits_of_decode _ := trivial

def boolean : Codec Bool where
  encode := .bool
  decode
    | .bool value => some value
    | _ => none
  Fits _ := True
  decode_encode _ := rfl
  fits_of_decode _ := trivial

/-- Numbers below a bound. -/
def below (bound : Nat) : Codec Nat where
  encode value := .number value
  decode
    | .number value => if 0 ≤ value ∧ value < bound then some value.toNat else none
    | _ => none
  Fits value := value < bound
  decode_encode {value} fits := by
    have inside : (0 : Int) ≤ value ∧ (value : Int) < bound := by omega
    simp only [if_pos inside, Int.toNat_natCast]
  fits_of_decode {document value} decoded := by
    cases document with
    | number number =>
      dsimp only at decoded
      split_ifs at decoded
      cases decoded
      omega
    | _ => cases decoded

/-- Decode every item, or nothing. -/
def decodeItems (decode : Value → Option T) : List Value → Option (List T)
  | [] => some []
  | item :: rest => do
      let value ← decode item
      let values ← decodeItems decode rest
      some (value :: values)

theorem decodeItems_encode (codec : Codec T) {values : List T} (fits : ∀ value ∈ values, codec.Fits value) :
    decodeItems codec.decode (values.map codec.encode) = some values := by
  induction values with
  | nil => rfl
  | cons value rest ih =>
    obtain ⟨first, others⟩ := List.forall_mem_cons.mp fits
    simp only [List.map_cons, decodeItems, codec.decode_encode first, ih others, Option.bind_eq_bind, Option.bind_some]

theorem fits_of_decodeItems (codec : Codec T) {items : List Value} {values : List T}
    (decoded : decodeItems codec.decode items = some values) : ∀ value ∈ values, codec.Fits value := by
  induction items generalizing values with
  | nil =>
    cases decoded
    exact List.forall_mem_nil _
  | cons item rest ih =>
    obtain ⟨value, first, decoded⟩ := Option.bind_eq_some_iff.mp decoded
    obtain ⟨others, later, same⟩ := Option.bind_eq_some_iff.mp decoded
    cases same
    exact List.forall_mem_cons.mpr ⟨codec.fits_of_decode first, ih later⟩

def list (codec : Codec T) : Codec (List T) where
  encode values := .array (values.map codec.encode)
  decode
    | .array items => decodeItems codec.decode items
    | _ => none
  Fits values := ∀ value ∈ values, codec.Fits value
  decode_encode fits := decodeItems_encode codec fits
  fits_of_decode {document value} decoded := by
    cases document with
    | array items => exact fits_of_decodeItems codec decoded
    | _ => cases decoded

def pair (first : Codec T) (second : Codec U) : Codec (T × U) where
  encode value := .array [first.encode value.1, second.encode value.2]
  decode
    | .array [left, right] => do
        let left ← first.decode left
        let right ← second.decode right
        some (left, right)
    | _ => none
  Fits value := first.Fits value.1 ∧ second.Fits value.2
  decode_encode fits := by
    simp only [first.decode_encode fits.1, second.decode_encode fits.2, Option.bind_eq_bind, Option.bind_some]
  fits_of_decode {document value} decoded := by
    rcases document with _ | _ | _ | _ | (_ | ⟨left, _ | ⟨right, _ | _⟩⟩) | _ <;> try cases decoded
    obtain ⟨left, first, decoded⟩ := Option.bind_eq_some_iff.mp decoded
    obtain ⟨right, second, same⟩ := Option.bind_eq_some_iff.mp decoded
    cases same
    exact ⟨Codec.fits_of_decode _ first, Codec.fits_of_decode _ second⟩

/-- A value or `null`, for a type that is never written as `null`. -/
def nullable (codec : Codec T) (written : ∀ value, (codec.encode value).isNull = false) : Codec (Option T) where
  encode value := value.elim .null codec.encode
  decode document := if document.isNull then some none else (codec.decode document).map some
  Fits value := ∀ inner ∈ value, codec.Fits inner
  decode_encode {value} fits := by
    cases value with
    | none => rfl
    | some inner =>
      rw [Option.elim_some, written, if_neg Bool.false_ne_true, codec.decode_encode (fits inner rfl), Option.map_some]
  fits_of_decode {document value} decoded := by
    split_ifs at decoded
    · cases decoded
      intro inner none
      cases none
    · obtain ⟨inner, inside, rfl⟩ := Option.map_eq_some_iff.mp decoded
      rintro _ ⟨⟩
      exact codec.fits_of_decode inside

end Codec

/-- A field of a struct, which may be left out of an object. -/
structure Field (T : Type) where
  name : String
  write : T → Option Value
  read : Option Value → Option T
  Fits : T → Prop
  read_write : ∀ {value}, Fits value → read (write value) = some value
  fits_of_read : ∀ {entry value}, read entry = some value → Fits value

namespace Codec

variable {T : Type}

def required (codec : Codec T) (name : String) : Field T where
  name
  write value := some (codec.encode value)
  read entry := entry.bind codec.decode
  Fits := codec.Fits
  read_write fits := codec.decode_encode fits
  fits_of_read read := by
    obtain ⟨_, _, decoded⟩ := Option.bind_eq_some_iff.mp read
    exact codec.fits_of_decode decoded

/-- A field that reads as a default when it is absent. -/
def withDefault (codec : Codec T) (name : String) (default : T) (fits : codec.Fits default) : Field T where
  name
  write value := some (codec.encode value)
  read entry := entry.elim (some default) codec.decode
  Fits := codec.Fits
  read_write fits := codec.decode_encode fits
  fits_of_read {entry value} read := by
    cases entry with
    | none =>
      cases read
      exact fits
    | some document => exact codec.fits_of_decode read

theorem nullable_fits_none (codec : Codec T) (written : ∀ value, (codec.encode value).isNull = false) :
    (codec.nullable written).Fits none :=
  fun _ none => nomatch none

/-- A field that is written as `null` when it has no value, and has none when it is absent. -/
def optional (codec : Codec T) (written : ∀ value, (codec.encode value).isNull = false) (name : String) : Field (Option T) :=
  (codec.nullable written).withDefault name none (codec.nullable_fits_none written)

/-- An optional field that is not written when it has no value. -/
def skipped (codec : Codec T) (written : ∀ value, (codec.encode value).isNull = false) (name : String) :
    Field (Option T) where
  name
  write value := value.map codec.encode
  read := (codec.optional written name).read
  Fits := (codec.nullable written).Fits
  read_write {value} fits := by
    cases value with
    | none => rfl
    | some inner =>
      change (codec.nullable written).decode (codec.encode inner) = _
      exact (codec.nullable written).decode_encode fits
  fits_of_read := (codec.optional written name).fits_of_read

end Codec

/-- The fields of a struct, in the order they are written. -/
structure Fields (T : Type) where
  names : List String
  write : T → Members
  read : (String → Option Value) → Option T
  Fits : T → Prop
  /-- The fields whose absence reads as the value they have. -/
  Omits : T → String → Prop
  distinct : names.Nodup
  written : ∀ value, ((write value).map (·.1)).Sublist names
  read_of_agrees : ∀ {value entries}, Fits value →
    (∀ name ∈ names, entries name = (write value).lookup name ∨ entries name = none ∧ Omits value name) →
    read entries = some value
  fits_of_read : ∀ {entries value}, read entries = some value → Fits value

/-- A struct with one field. -/
def Field.alone {T : Type} (field : Field T) : Fields T where
  names := [field.name]
  write value := (field.write value).toList.map (field.name, ·)
  read entries := field.read (entries field.name)
  Fits := field.Fits
  Omits value _ := field.read none = some value
  distinct := List.nodup_singleton _
  written value := by cases field.write value <;> simp
  read_of_agrees {value entries} fits agrees := by
    have lookup : ((field.write value).toList.map (field.name, ·)).lookup field.name = field.write value := by
      cases field.write value <;> simp
    rcases agrees field.name (List.mem_singleton_self _) with same | ⟨absent, omitted⟩
    · rw [same, lookup, field.read_write fits]
    · rw [absent, omitted]
  fits_of_read := field.fits_of_read

namespace Fields

variable {T U : Type}

theorem lookup_eq_none_of_not_mem {members : Members} {name : String} (absent : name ∉ members.map (·.1)) :
    members.lookup name = none := by
  rw [List.lookup_eq_none_iff]
  intro member listed
  rw [bne_iff_ne]
  rintro rfl
  exact absent (List.mem_map_of_mem listed)

/-- A name that a struct does not have is in none of its objects. -/
theorem lookup_write_of_not_mem (fields : Fields T) (value : T) {name : String} (foreign : name ∉ fields.names) :
    (fields.write value).lookup name = none :=
  lookup_eq_none_of_not_mem fun listed => foreign ((fields.written value).mem listed)

/-- The fields of two structs with different names, side by side. -/
def and (first : Fields T) (rest : Fields U) (disjoint : ∀ name ∈ first.names, name ∉ rest.names := by decide) :
    Fields (T × U) where
  names := first.names ++ rest.names
  write value := first.write value.1 ++ rest.write value.2
  read entries := do
    let left ← first.read entries
    let right ← rest.read entries
    some (left, right)
  Fits value := first.Fits value.1 ∧ rest.Fits value.2
  Omits value name := name ∈ first.names ∧ first.Omits value.1 name ∨ name ∈ rest.names ∧ rest.Omits value.2 name
  distinct := List.nodup_append'.mpr ⟨first.distinct, rest.distinct, disjoint⟩
  written value := by
    rw [List.map_append]
    exact (first.written value.1).append (rest.written value.2)
  read_of_agrees {value entries} fits agrees := by
    have left : first.read entries = some value.1 := by
      apply first.read_of_agrees fits.1
      intro name member
      have foreign : name ∉ rest.names := disjoint name member
      rcases agrees name (List.mem_append_left _ member) with same | ⟨absent, omitted⟩
      · rw [same, List.lookup_append, rest.lookup_write_of_not_mem _ foreign, Option.or_none]
        exact .inl rfl
      · exact .inr ⟨absent, (omitted.resolve_right fun other => foreign other.1).2⟩
    have right : rest.read entries = some value.2 := by
      apply rest.read_of_agrees fits.2
      intro name member
      have foreign : name ∉ first.names := fun listed => disjoint name listed member
      rcases agrees name (List.mem_append_right _ member) with same | ⟨absent, omitted⟩
      · rw [same, List.lookup_append, first.lookup_write_of_not_mem _ foreign, Option.none_or]
        exact .inl rfl
      · exact .inr ⟨absent, (omitted.resolve_left fun other => foreign other.1).2⟩
    rw [left, right]
    rfl
  fits_of_read {entries value} read := by
    obtain ⟨left, first, read⟩ := Option.bind_eq_some_iff.mp read
    obtain ⟨right, rest, same⟩ := Option.bind_eq_some_iff.mp read
    cases same
    exact ⟨Fields.fits_of_read _ first, Fields.fits_of_read _ rest⟩

/-- A struct without fields. -/
def none : Fields Unit where
  names := []
  write _ := []
  read _ := some ()
  Fits _ := True
  Omits _ _ := False
  distinct := List.nodup_nil
  written _ := List.Sublist.refl _
  read_of_agrees _ _ := rfl
  fits_of_read _ := trivial

/-! ## Objects -/

/-- Whether a name occurs at most once. -/
def unique (members : Members) (name : String) : Bool := (members.filter (·.1 == name)).length ≤ 1

/-- A field that occurs twice is an error, other members are ignored. -/
def decode (fields : Fields T) (members : Members) : Option T :=
  if fields.names.all (unique members) then fields.read fun name => members.lookup name else .none

/-- An object agrees with a value: its fields occur once, as written, or are left out where that reads the same. -/
structure Agrees (fields : Fields T) (members : Members) (value : T) : Prop where
  once : ∀ name ∈ fields.names, (members.filter (·.1 == name)).length ≤ 1
  entries : ∀ name ∈ fields.names, members.lookup name = (fields.write value).lookup name ∨
    members.lookup name = .none ∧ fields.Omits value name

variable (fields : Fields T) {members : Members} {value : T}

theorem decode_of_agrees (fits : fields.Fits value) (agrees : fields.Agrees members value) :
    fields.decode members = some value := by
  have unique : fields.names.all (unique members) :=
    List.all_eq_true.mpr fun name listed => decide_eq_true (agrees.once name listed)
  rw [decode, if_pos unique]
  exact fields.read_of_agrees fits agrees.entries

theorem fits_of_decode (decoded : fields.decode members = some value) : fields.Fits value := by
  unfold decode at decoded
  split_ifs at decoded
  exact fields.fits_of_read decoded

/-- Every name is written once. -/
theorem write_nodup (value : T) : ((fields.write value).map (·.1)).Nodup := fields.distinct.sublist (fields.written value)

end Fields

theorem once_of_nodup {members : Members} (distinct : (members.map (·.1)).Nodup) (name : String) :
    (members.filter (·.1 == name)).length ≤ 1 := by
  rw [← List.countP_eq_length_filter]
  have counted : members.countP (·.1 == name) = (members.map (·.1)).count name := by
    rw [List.count, List.countP_map]
    rfl
  rw [counted]
  exact List.nodup_iff_count_le_one.mp distinct name

theorem lookup_filter (members : Members) (keep : String → Bool) {name : String} (kept : keep name) :
    (members.filter fun member => keep member.1).lookup name = members.lookup name := by
  induction members with
  | nil => rfl
  | cons member rest ih =>
    obtain ⟨other, document⟩ := member
    rcases found : name == other with _ | _
    · cases keeps : keep other
      · simp only [List.filter_cons, keeps, Bool.false_eq_true, if_false, List.lookup_cons, found, ih]
      · simp only [List.filter_cons, keeps, if_true, List.lookup_cons, found, ih]
    · obtain rfl := eq_of_beq found
      simp only [List.filter_cons, kept, if_true, List.lookup_cons_self]

namespace Fields

variable {T : Type} (fields : Fields T) {members : Members} {value : T}

theorem agrees_write (value : T) : fields.Agrees (fields.write value) value where
  once name _ := once_of_nodup (fields.write_nodup value) name
  entries _ _ := .inl rfl

theorem decode_write (fits : fields.Fits value) : fields.decode (fields.write value) = some value :=
  fields.decode_of_agrees fits (fields.agrees_write value)

/-- Members with other names play no part. -/
theorem Agrees.filter {fields : Fields T} (agrees : fields.Agrees members value) (keep : String → Bool)
    (kept : ∀ name ∈ fields.names, keep name) : fields.Agrees (members.filter fun member => keep member.1) value where
  once name listed := Nat.le_trans (List.filter_sublist.filter _).length_le (agrees.once name listed)
  entries name listed := by
    rw [lookup_filter members keep (kept name listed)]
    exact agrees.entries name listed

end Fields

/-! ## Enumerations

Each variant is a struct. Its tag is the one member of an object around it, or one more member of its own object.
-/

/-- A value of a struct, with the fields it has. -/
structure Struct where
  T : Type
  fields : Fields T
  value : T

namespace Struct

def members (struct : Struct) : Members := struct.fields.write struct.value

def Fits (struct : Struct) : Prop := struct.fields.Fits struct.value

def Agrees (struct : Struct) (members : Members) : Prop := struct.fields.Agrees members struct.value

end Struct

/-- The variants of an enumeration, by their tags. -/
structure Variants (K : Type) where
  tag : K → String
  struct : K → Struct
  decode : String → Members → Option K
  decode_of_struct : ∀ {value members}, (struct value).fields.decode members = some (struct value).value →
    decode (tag value) members = some value
  fits_of_decode : ∀ {tag members value}, decode tag members = some value → (struct value).Fits

namespace Variants

variable {K : Type} (variants : Variants K) {value : K} {members : Members}

theorem decode_of_agrees (fits : (variants.struct value).Fits) (agrees : (variants.struct value).Agrees members) :
    variants.decode (variants.tag value) members = some value :=
  variants.decode_of_struct ((variants.struct value).fields.decode_of_agrees fits agrees)

/-- A variant as an object whose one member is named by the tag. -/
def external : Codec K where
  encode value := .object [(variants.tag value, .object (variants.struct value).members)]
  decode
    | .object [(tag, .object members)] => variants.decode tag members
    | _ => none
  Fits value := (variants.struct value).Fits
  decode_encode {value} fits := variants.decode_of_agrees fits ((variants.struct value).fields.agrees_write _)
  fits_of_decode {document value} decoded := by
    rcases document with _ | _ | _ | _ | _ | (_ | ⟨⟨tag, _ | _ | _ | _ | _ | members⟩, _ | _⟩) <;> try cases decoded
    exact variants.fits_of_decode decoded

/-- A variant as an object with its tag among its members. -/
def writeInternal (key : String) (value : K) : Members :=
  (key, .string (variants.tag value)) :: (variants.struct value).members

def readInternal (key : String) (members : Members) : Option K :=
  match members.filter (·.1 == key) with
  | [(_, .string tag)] => variants.decode tag (members.filter (·.1 != key))
  | _ => none

variable {key : String}

theorem readInternal_of_agrees (tagged : members.filter (·.1 == key) = [(key, .string (variants.tag value))])
    (untagged : key ∉ (variants.struct value).fields.names) (fits : (variants.struct value).Fits)
    (agrees : (variants.struct value).Agrees members) : variants.readInternal key members = some value := by
  rw [readInternal, tagged]
  apply variants.decode_of_agrees fits
  apply agrees.filter fun name => name != key
  intro name listed
  rw [bne_iff_ne]
  rintro rfl
  exact untagged listed

theorem fits_of_readInternal (read : variants.readInternal key members = some value) : (variants.struct value).Fits := by
  unfold readInternal at read
  split at read
  · exact variants.fits_of_decode read
  · cases read

end Variants

end Duroxide.Lib.Json
