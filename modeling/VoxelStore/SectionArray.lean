import VoxelStore.Geometry
import VoxelStore.Session
/-!
# The blocks of one section

A section array holds 4096 ordinals in cells of one width. Reads and writes by a plain index are checked;
a narrow cell refuses an ordinal above 65535. The cells therefore always fit the width, which the type
says.
-/

namespace VoxelStore

/-- The ordinals of one section, by block index. -/
structure SectionArray where
  width : ArrayWidth
  cells : Vector BlockState sectionBlocks
  fits : ∀ i (h : i < sectionBlocks), width.Holds cells[i]
  deriving DecidableEq

namespace SectionArray

def constant (w : ArrayWidth) (v : BlockState) (h : w.Holds v) : SectionArray where
  width := w
  cells := Vector.replicate sectionBlocks v
  fits i hi := by simpa using h

def blank (w : ArrayWidth) : SectionArray := constant w 0 w.holds_zero

instance : Inhabited SectionArray := ⟨blank .wide⟩

variable (a : SectionArray)

def get (i : Nat) : Except Fault BlockState :=
  if h : i < sectionBlocks then .ok a.cells[i] else .error (.outOfBounds i sectionBlocks)

/-- Puts `v` at `i`. An ordinal that is too wide is reported before an index that is too large. -/
def set (i : Nat) (v : BlockState) : Except Fault SectionArray :=
  if hv : a.width.Holds v then
    if hi : i < sectionBlocks then
      .ok { a with
        cells := a.cells.set i v hi
        fits := fun j hj => by
          rw [Vector.getElem_set]
          split
          · exact hv
          · exact a.fits j hj }
    else .error (.outOfBounds i sectionBlocks)
  else .error (.ordinalTooWide v)

/-- Puts `v` at every index from `start` up to, not including, `stop`. The range is checked first, and
the ordinal even if the range is empty. -/
def setRange (start stop : Nat) (v : BlockState) : Except Fault SectionArray :=
  if stop < start ∨ sectionBlocks < stop then .error (.rangeOutOfBounds start stop sectionBlocks)
  else if hv : a.width.Holds v then
    .ok { a with
      cells := a.cells.mapIdx fun i old => if start ≤ i ∧ i < stop then v else old
      fits := fun j hj => by
        rw [Vector.getElem_mapIdx]
        split
        · exact hv
        · exact a.fits j hj }
  else .error (.ordinalTooWide v)

def setAll (v : BlockState) : Except Fault SectionArray := a.setRange 0 sectionBlocks v

/-- The `target` with every cell taken from `source`. Both have to be of one width. -/
def copyInto (source target : SectionArray) : Except Fault SectionArray :=
  if h : source.width = target.width then
    .ok { target with cells := source.cells, fits := h ▸ source.fits }
  else .error (.widthMismatch source.width target.width)

/-- Every cell holds zero. -/
def isEmpty : Bool := a.cells.all (· == 0)

def first : BlockState := a.cells[0]

/-- The one value that every cell holds, if there is one. -/
def uniform? : Option BlockState :=
  if a.cells.all (· == a.first) then some a.first else none

/-- The values that occur, ascending. -/
def distinct : List BlockState := (a.cells.toList.mergeSort (· ≤ ·)).eraseReps

def text : String :=
  "DataArray(" ++ a.width.name ++ ", distinct: \x7b" ++ ", ".intercalate (a.distinct.map toString) ++ "\x7d)"

/-- A blank array of the width of the session. -/
def create : Run SectionArray := blank <$> ArrayWidth.current

/-- An array of the width of the session that holds `v` everywhere. -/
def filled (v : BlockState) : Run SectionArray := do
  (← create).setAll v

/-- A copy of `other`, which has to be of the width of the session. -/
def copyOf (other : SectionArray) : Run SectionArray := do
  other.copyInto (← create)

end SectionArray

end VoxelStore
