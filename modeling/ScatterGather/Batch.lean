import ScatterGather.StringMap
import ScatterGather.Sum
/-!
Batches of rows in columns under a schema. Putting batches of one schema together appends their
columns, and adds up the rows of batches without columns. The types `T` of columns and the cells `C`
are left open, since nothing here looks into them.
-/
namespace ScatterGather

abbrev Metadata := StringMap String

/-- The types of the columns that shards give. -/
inductive DataType
  | int64
  | uint64
  | int32
  | float64
  | utf8
  | bool
  deriving DecidableEq

structure Field (T : Type := DataType) where
  name : String
  type : T
  nullable : Bool
  metadata : Metadata
  deriving DecidableEq

structure Schema (T : Type := DataType) where
  fields : List (Field T)
  metadata : Metadata
  deriving DecidableEq

/-- A value of any type; a double is kept as its bits. -/
inductive Cell
  | null
  | int (n : Int)
  | double (bits : UInt64)
  | text (s : String)
  | bool (b : Bool)
  deriving DecidableEq

structure Batch (T : Type := DataType) (C : Type := Cell) where
  schema : Schema T
  rows : Nat
  columns : List (List C)
  width : columns.length = schema.fields.length
  height : ∀ c ∈ columns, c.length = rows
  deriving DecidableEq

namespace Batch

variable {T C : Type}

/-- A batch of columns that fit the schema and have as many cells as there are rows. -/
def ofColumns? (schema : Schema T) (rows : Nat) (columns : List (List C)) : Option (Batch T C) :=
  if width : columns.length = schema.fields.length then
    if height : ∀ c ∈ columns, c.length = rows then some ⟨schema, rows, columns, width, height⟩
    else none
  else none

def column (b : Batch T C) (i : Nat) : List C := (b.columns[i]?).getD []

theorem length_column (b : Batch T C) (i : Nat) (h : i < b.schema.fields.length) :
    (b.column i).length = b.rows := by
  have hi : i < b.columns.length := b.width ▸ h
  simp [column, List.getElem?_eq_getElem hi, b.height _ (List.getElem_mem hi)]

def totalRows (bs : List (Batch T C)) : Nat := (bs.map rows).sum

/-- The column at a position through all batches. -/
def stacked (bs : List (Batch T C)) (i : Nat) : List C := bs.flatMap fun b => b.column i

theorem length_stacked (schema : Schema T) (bs : List (Batch T C)) (i : Nat)
    (h : ∀ b ∈ bs, b.schema = schema) (hi : i < schema.fields.length) :
    (stacked bs i).length = totalRows bs := by
  induction bs with
  | nil => rfl
  | cons b bs ih =>
    have hb := b.length_column i (by rw [h b (by simp)]; exact hi)
    have := ih fun b hb => h b (List.mem_cons_of_mem _ hb)
    simp only [stacked, totalRows, List.flatMap_cons, List.length_append, List.map_cons,
      List.sum_cons] at *
    omega

/-- One batch with the rows of all, in order. -/
def concat (schema : Schema T) (bs : List (Batch T C)) (h : ∀ b ∈ bs, b.schema = schema) :
    Batch T C where
  schema
  rows := totalRows bs
  columns := (List.range schema.fields.length).map (stacked bs)
  width := by simp
  height c hc := by
    obtain ⟨i, hi, rfl⟩ := List.mem_map.1 hc
    exact length_stacked schema bs i h (List.mem_range.1 hi)

variable [DecidableEq T]

/-- The position of the first batch of another schema. -/
def stranger? (schema : Schema T) (bs : List (Batch T C)) : Option Nat :=
  bs.findIdx? fun b => b.schema ≠ schema

theorem schema_of_stranger? {schema : Schema T} {bs : List (Batch T C)}
    (h : stranger? schema bs = none) :
    ∀ b ∈ bs, b.schema = schema := by
  simpa [stranger?, List.findIdx?_eq_none_iff] using h

end Batch
end ScatterGather
