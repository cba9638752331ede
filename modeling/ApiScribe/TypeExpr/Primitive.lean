/-!
# Primitive types
-/

namespace ApiScribe

/-- The types with a fixed schema. -/
inductive Primitive where
  | string | char | i8 | i16 | i32 | i64 | i128 | isize | u8 | u16 | u32 | u64 | u128 | usize
  | f32 | f64 | bool
  /-- A sequence of `u8`. -/
  | bytes
  | dateTime | date | uuid
deriving DecidableEq, Repr

namespace Primitive

/-- The primitive that a type name stands for; times and identifiers go by their usual names. -/
def ofTypeName? (name : String) : Option Primitive :=
  match name with
  | "String" => some .string
  | "str" => some .string
  | "char" => some .char
  | "i8" => some .i8
  | "i16" => some .i16
  | "i32" => some .i32
  | "i64" => some .i64
  | "i128" => some .i128
  | "isize" => some .isize
  | "u8" => some .u8
  | "u16" => some .u16
  | "u32" => some .u32
  | "u64" => some .u64
  | "u128" => some .u128
  | "usize" => some .usize
  | "f32" => some .f32
  | "f64" => some .f64
  | "bool" => some .bool
  | "DateTime" => some .dateTime
  | "NaiveDateTime" => some .dateTime
  | "OffsetDateTime" => some .dateTime
  | "PrimitiveDateTime" => some .dateTime
  | "SystemTime" => some .dateTime
  | "NaiveDate" => some .date
  | "Uuid" => some .uuid
  | _ => none

/-- The primitive that a parameter's type stands for, in the spelling of either side. -/
def ofParameterType? (name : String) : Option Primitive :=
  match name with
  | "string" => some .string
  | "integer" => some .i64
  | "int" => some .i64
  | "int32" => some .i32
  | "int64" => some .i64
  | "number" => some .f64
  | "double" => some .f64
  | "float" => some .f32
  | "boolean" => some .bool
  | "uuid" => some .uuid
  | "date-time" => some .dateTime
  | "date" => some .date
  | other => ofTypeName? other

/-- Whether values serve as the keys of an object as they are. -/
def isTextLike : Primitive → Bool
  | .string | .char | .uuid | .dateTime | .date => true
  | _ => false

end Primitive

end ApiScribe
