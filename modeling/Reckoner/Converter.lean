import Reckoner.Precision

/-!
# Number types and converters

Values enter and leave a calculation in the number types of the host.  A converter takes the values
of one type to decimals and back; a collection holds at most one converter for each type, and a type
without a converter cannot be exchanged.
-/

namespace Reckoner

/-- A type of numbers that a host exchanges with calculations. -/
inductive NumberType
  /-- Decimals themselves. -/
  | decimal
  /-- Floating-point numbers of 64 bits. -/
  | float64
  /-- Floating-point numbers of 32 bits. -/
  | float32
  /-- Integers of 64 bits with a sign. -/
  | int64
  /-- Integers of 32 bits with a sign. -/
  | int32
  /-- Integers of 16 bits with a sign. -/
  | int16
  /-- A type of the host's own, which counts in a unit that only its converter knows. -/
  | foreign (name : String)
  deriving DecidableEq, Repr

namespace NumberType

/-- The values of a number type. -/
abbrev Carrier : NumberType → Type
  | decimal => Decimal
  | float64 => Float
  | float32 => Float32
  | int64 => Int64
  | int32 => Int32
  | int16 => Int16
  | foreign _ => Int

/-- The name of a number type in faults. -/
def name : NumberType → String
  | decimal => "bigdecimal::BigDecimal"
  | float64 => "f64"
  | float32 => "f32"
  | int64 => "i64"
  | int32 => "i32"
  | int16 => "i16"
  | foreign name => name

/-- The fault of a decimal that a number type cannot hold. -/
def outOfRange (type : NumberType) (number : Decimal) : Fault :=
  .conversion s!"{number.plain} cannot be represented as {type.name}"

end NumberType

/-- How the values of a number type become decimals and how decimals become such values. -/
structure Converter (type : NumberType) where
  /-- The decimal of a value. -/
  toDecimal : type.Carrier → Except Fault Decimal
  /-- The value that a decimal stands for. -/
  ofDecimal : Decimal → Except Fault type.Carrier

namespace Converter

/-- The shortest decimal of a floating-point pattern; infinite and undefined values have none. -/
def floatToDecimal (format : Binary) (bits : Nat) : Except Fault Decimal :=
  match format.toDecimal? bits with
  | some number => .ok number
  | none => .error (.conversion s!"{format.text bits} is not a finite number")

/-- The integer part of a decimal, if it is an integer from `-bound` to below `bound`. -/
def integer (type : NumberType) (bound : Nat) (number : Decimal) : Except Fault Int := do
  let whole ← number.truncate
  if -bound ≤ whole ∧ whole < bound then
    return whole
  else
    throw (type.outOfRange number)

/-- Decimals stay as they are. -/
def decimal : Converter .decimal := ⟨.ok, .ok⟩

/-- Doubles by their shortest decimals, decimals to the nearest double. -/
def float64 : Converter .float64 :=
  ⟨fun value => floatToDecimal .double value.toBits.toNat, Decimal.toFloat⟩

/-- Floats of 32 bits by their shortest decimals, decimals to the nearest of them. -/
def float32 : Converter .float32 where
  toDecimal value := floatToDecimal .single value.toBits.toNat
  ofDecimal number :=
    match Binary.single.ofDecimal? number with
    | some bits => .ok (Float32.ofBits (UInt32.ofNat bits))
    | none => .error (NumberType.float32.outOfRange number)

/-- Integers of 64 bits; decimals lose their fraction. -/
def int64 : Converter .int64 where
  toDecimal value := .ok (.ofInt value.toInt)
  ofDecimal number := do
    let whole ← integer .int64 0x8000000000000000 number
    return Int64.ofInt whole

/-- Integers of 32 bits; decimals lose their fraction. -/
def int32 : Converter .int32 where
  toDecimal value := .ok (.ofInt value.toInt)
  ofDecimal number := do
    let whole ← integer .int32 0x80000000 number
    return Int32.ofInt whole

/-- Integers of 16 bits; decimals lose their fraction. -/
def int16 : Converter .int16 where
  toDecimal value := .ok (.ofInt value.toInt)
  ofDecimal number := do
    let whole ← integer .int16 0x8000 number
    return Int16.ofInt whole

end Converter

/-- A converter with the type that it is for. -/
abbrev AnyConverter := (type : NumberType) × Converter type

/-- Converters by the number type that they are for, at most one for each type. -/
structure Converters where
  /-- The converters with their types. -/
  entries : List AnyConverter
  /-- No type has two converters. -/
  distinct : (entries.map Sigma.fst).Nodup

namespace Converters

/-- No converters. -/
def empty : Converters := ⟨[], by simp⟩

/-- The first converter for a type in a list. -/
def findIn (type : NumberType) : List AnyConverter → Option (Converter type)
  | [] => none
  | ⟨other, converter⟩ :: rest =>
    if same : other = type then some (same ▸ converter) else findIn type rest

/-- The converter for a type. -/
def find? (converters : Converters) (type : NumberType) : Option (Converter type) :=
  findIn type converters.entries

/-- Whether there is a converter for a type. -/
def contains (converters : Converters) (type : NumberType) : Bool := (converters.find? type).isSome

/-- How many types have a converter. -/
def size (converters : Converters) : Nat := converters.entries.length

/-- The converters without the one for a type. -/
def remove (converters : Converters) (type : NumberType) : Converters :=
  ⟨converters.entries.filter fun entry => entry.1 != type,
    (List.filter_sublist.map Sigma.fst).nodup converters.distinct⟩

theorem ne_of_mem_remove {converters : Converters} {type : NumberType} {entry : AnyConverter}
    (found : entry ∈ (converters.remove type).entries) : entry.1 ≠ type := by
  simpa using (List.mem_filter.1 found).2

/-- The converters with the one for a type set. -/
def register (converters : Converters) {type : NumberType} (converter : Converter type) :
    Converters :=
  ⟨(converters.remove type).entries ++ [⟨type, converter⟩], by
    rw [List.map_append, List.nodup_append]
    refine ⟨(converters.remove type).distinct, by simp, ?_⟩
    intro other found same equal
    obtain ⟨entry, member, rfl⟩ := List.mem_map.1 found
    simp only [List.map_cons, List.map_nil, List.mem_singleton] at equal
    exact fun matching => ne_of_mem_remove member (matching.trans equal)⟩

/-- The converters of two collections, where the second one wins. -/
def merge (converters other : Converters) : Converters :=
  other.entries.foldl (fun merged entry => merged.register entry.2) converters

/-- The converters for the types that every host has. -/
def standard : Converters :=
  ⟨[⟨.decimal, .decimal⟩, ⟨.float64, .float64⟩, ⟨.float32, .float32⟩,
    ⟨.int64, .int64⟩, ⟨.int32, .int32⟩, ⟨.int16, .int16⟩], by decide⟩

theorem findIn_append (type : NumberType) (entries others : List AnyConverter) :
    findIn type (entries ++ others) = (findIn type entries).or (findIn type others) := by
  induction entries with
  | nil => rfl
  | cons entry rest ih =>
    by_cases same : entry.1 = type
    · simp [findIn, same]
    · simp [findIn, same, ih]

theorem findIn_filter (type : NumberType) (keep : AnyConverter → Bool)
    (entries : List AnyConverter) (kept : ∀ entry ∈ entries, entry.1 = type → keep entry = true) :
    findIn type (entries.filter keep) = findIn type entries := by
  induction entries with
  | nil => rfl
  | cons entry rest ih =>
    have tail := ih fun other found => kept other (List.mem_cons_of_mem _ found)
    by_cases same : entry.1 = type
    · simp [kept entry (List.mem_cons_self ..) same, findIn, same]
    · by_cases keeps : keep entry = true <;> simp [keeps, findIn, same, tail]

theorem findIn_eq_none {type : NumberType} {entries : List AnyConverter}
    (absent : ∀ entry ∈ entries, entry.1 ≠ type) : findIn type entries = none := by
  induction entries with
  | nil => rfl
  | cons entry rest ih =>
    rw [findIn, dif_neg (absent entry (List.mem_cons_self ..))]
    exact ih fun other found => absent other (List.mem_cons_of_mem _ found)

@[simp]
theorem find?_remove_self (converters : Converters) (type : NumberType) :
    (converters.remove type).find? type = none :=
  findIn_eq_none fun _ found => ne_of_mem_remove found

theorem find?_remove_of_ne (converters : Converters) {type other : NumberType}
    (different : other ≠ type) : (converters.remove type).find? other = converters.find? other :=
  findIn_filter other _ _ fun _ _ same => by simpa [same] using different

@[simp]
theorem find?_register_self (converters : Converters) {type : NumberType}
    (converter : Converter type) : (converters.register converter).find? type = some converter := by
  rw [find?, register, findIn_append, ← find?, find?_remove_self]
  simp [findIn]

/-- Registering a converter changes no other type. -/
theorem find?_register_of_ne (converters : Converters) {type other : NumberType}
    (converter : Converter type) (different : other ≠ type) :
    (converters.register converter).find? other = converters.find? other := by
  rw [find?, register, findIn_append, ← find?, find?_remove_of_ne converters different]
  simp [findIn, different.symm]

/-- The converter for a type, or the fault that there is none. -/
def find (converters : Converters) (type : NumberType) : Except Fault (Converter type) :=
  match converters.find? type with
  | some converter => .ok converter
  | none => .error (.missingConverter type.name)

/-- The decimal of a value, by the converter for its type. -/
def toDecimal (converters : Converters) (type : NumberType) (value : type.Carrier) :
    Except Fault Decimal := do
  let converter ← converters.find type
  converter.toDecimal value

/-- The value of a type that a decimal stands for, by the converter for the type. -/
def ofDecimal (converters : Converters) (type : NumberType) (number : Decimal) :
    Except Fault type.Carrier := do
  let converter ← converters.find type
  converter.ofDecimal number

end Converters
end Reckoner
