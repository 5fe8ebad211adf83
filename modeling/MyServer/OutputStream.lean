import Mathlib.Data.List.Basic

/-!
The output side of C++ streams. A stream buffer has a put area, and what becomes of a byte for
which the area has no room is up to the `overflow` of the derived class. A stream writes into
its buffer only while it is good.
-/

namespace OutputStream

def toIntType (c : UInt8) : Int := c.toNat

def eof : Int := -1

theorem toIntType_ne_eof (c : UInt8) : toIntType c ≠ eof := by
  unfold toIntType eof
  omega

/-- The array of the put area, and `pptr() - pbase()`. The area ends where the array does. -/
structure PutArea (capacity : Nat) where
  cells : Vector UInt8 capacity
  next : Nat
  bound : next ≤ capacity

variable {capacity : Nat}

namespace PutArea

def view (area : PutArea capacity) : List UInt8 := area.cells.toList.take area.next

def setp (area : PutArea capacity) : PutArea capacity :=
  { area with next := 0, bound := Nat.zero_le _ }

def put (area : PutArea capacity) (c : UInt8) (room : area.next < capacity) : PutArea capacity where
  cells := area.cells.set area.next c
  next := area.next + 1
  bound := room

def fill (area : PutArea capacity) : List UInt8 → PutArea capacity × List UInt8
  | [] => (area, [])
  | c :: rest =>
      if room : area.next < capacity then (area.put c room).fill rest else (area, c :: rest)

theorem length_view (area : PutArea capacity) : area.view.length = area.next := by
  simp [view, area.bound]

theorem view_setp (area : PutArea capacity) : area.setp.view = [] := rfl

theorem view_put (area : PutArea capacity) (c : UInt8) (room : area.next < capacity) :
    (area.put c room).view = area.view ++ [c] := by
  have inside : area.next < (area.cells.toList.set area.next c).length := by simpa using room
  change (area.cells.set area.next c).toList.take (area.next + 1) = _
  rw [Vector.toList_set, List.take_succ_eq_append_getElem inside, List.take_set,
    List.set_eq_of_length_le (List.length_take_le _ _), List.getElem_set_self]
  rfl

theorem fill_view (area : PutArea capacity) (block : List UInt8) :
    (area.fill block).1.view ++ (area.fill block).2 = area.view ++ block := by
  induction block generalizing area with
  | nil => rfl
  | cons c rest ih =>
      by_cases room : area.next < capacity
      · rw [fill, dif_pos room, ih, view_put, List.append_assoc, List.singleton_append]
      · rw [fill, dif_neg room]

theorem fill_grows (area : PutArea capacity) (block : List UInt8) :
    area.next ≤ (area.fill block).1.next := by
  induction block generalizing area with
  | nil => exact Nat.le_refl _
  | cons c rest ih =>
      by_cases room : area.next < capacity
      · have puts : area.fill (c :: rest) = (area.put c room).fill rest := dif_pos room
        rw [puts]
        exact Nat.le_of_succ_le (ih (area.put c room))
      · have stays : area.fill (c :: rest) = (area, c :: rest) := dif_neg room
        exact Nat.le_of_eq (by rw [stays])

theorem fill_length (area : PutArea capacity) (block : List UInt8) :
    (area.fill block).2.length ≤ block.length := by
  have whole := congrArg List.length (fill_view area block)
  have grown := fill_grows area block
  simp only [List.length_append, length_view] at whole
  omega

/-- Bytes are left only when the area is full. -/
theorem fill_full (area : PutArea capacity) (block : List UInt8)
    (left : (area.fill block).2 ≠ []) : (area.fill block).1.next = capacity := by
  induction block generalizing area with
  | nil => exact absurd rfl left
  | cons c rest ih =>
      by_cases room : area.next < capacity
      · rw [fill, dif_pos room] at left ⊢
        exact ih _ left
      · rw [fill, dif_neg room]
        exact Nat.le_antisymm area.bound (Nat.not_lt.mp room)

end PutArea

abbrev Overflow (capacity : Nat) := PutArea capacity → Int → PutArea capacity × Int

variable (overflow : Overflow capacity)

def sputc (area : PutArea capacity) (c : UInt8) : PutArea capacity × Int :=
  if room : area.next < capacity then (area.put c room, toIntType c)
  else overflow area (toIntType c)

/-- `sputn`, which returns the bytes it did not write. It fills the put area, hands the next
byte to `overflow` and goes on unless that returns `eof`. -/
def sputn (area : PutArea capacity) (block : List UInt8) : PutArea capacity × List UInt8 :=
  match _left : (area.fill block).2 with
  | [] => ((area.fill block).1, [])
  | c :: rest =>
      let (next, answer) := overflow (area.fill block).1 (toIntType c)
      if answer = eof then (next, c :: rest) else sputn next rest
termination_by block.length
decreasing_by
  have shorter := area.fill_length block
  rw [_left, List.length_cons] at shorter
  omega

inductive Write
  | byte (c : UInt8)
  | block (bytes : List UInt8)

def Write.bytes : Write → List UInt8
  | .byte c => [c]
  | .block bytes => bytes

structure Ostream (capacity : Nat) where
  area : PutArea capacity
  bad : Bool
  fail : Bool

namespace Ostream

def good (os : Ostream capacity) : Bool := !os.bad && !os.fail

def clear (os : Ostream capacity) : Ostream capacity := { os with bad := false, fail := false }

def write (os : Ostream capacity) (item : Write) : Ostream capacity :=
  if os.good then
    match item with
    | .byte c =>
        let (area, answer) := sputc overflow os.area c
        { os with area, bad := answer = eof }
    | .block bytes =>
        let (area, left) := sputn overflow os.area bytes
        { os with area, bad := left ≠ [] }
  else { os with fail := true }

def writeAll (os : Ostream capacity) (items : List Write) : Ostream capacity :=
  items.foldl (write overflow) os

end Ostream

def Swallows : Prop :=
  ∀ area c, (overflow area (toIntType c)).1 = area ∧ (overflow area (toIntType c)).2 ≠ eof

theorem take_take_append {α : Type} (text rest : List α) (count : Nat) :
    (text.take count ++ rest).take count = (text ++ rest).take count := by
  rw [List.take_append, List.take_append, List.take_take, Nat.min_self, List.length_take]
  congr 2
  omega

section Swallowing

variable {overflow : Overflow capacity}

theorem view_take {area : PutArea capacity} {text : List UInt8} (whole : area.view = text) :
    area.view = text.take capacity := by
  have short : text.length ≤ capacity := by
    rw [← whole, area.length_view]
    exact area.bound
  rw [List.take_of_length_le short, whole]

theorem take_full {area : PutArea capacity} (full : area.next = capacity) (rest : List UInt8) :
    (area.view ++ rest).take capacity = area.view :=
  List.take_left' (area.length_view.trans full)

theorem sputc_swallows (swallows : Swallows overflow) (area : PutArea capacity) (c : UInt8) :
    (sputc overflow area c).1.view = (area.view ++ [c]).take capacity ∧
      (sputc overflow area c).2 ≠ eof := by
  by_cases room : area.next < capacity
  · rw [sputc, dif_pos room]
    exact ⟨view_take (area.view_put c room), toIntType_ne_eof c⟩
  · have full : area.next = capacity := Nat.le_antisymm area.bound (Nat.not_lt.mp room)
    rw [sputc, dif_neg room, take_full full, (swallows area c).1]
    exact ⟨rfl, (swallows area c).2⟩

theorem sputn_swallows (swallows : Swallows overflow) (area : PutArea capacity)
    (block : List UInt8) :
    (sputn overflow area block).1.view = (area.view ++ block).take capacity ∧
      (sputn overflow area block).2 = [] := by
  fun_induction sputn overflow area block with
  | case1 area block done =>
      have whole := area.fill_view block
      rw [done, List.append_nil] at whole
      exact ⟨view_take whole, rfl⟩
  | case2 area block c rest left next failed =>
      have answered := (swallows (area.fill block).1 c).2
      rw [failed] at answered
      exact absurd rfl answered
  | case3 area block c rest left next answer called written ih =>
      have kept := (swallows (area.fill block).1 c).1
      rw [called] at kept
      have full := area.fill_full block (by rw [left]; nofun)
      have whole := area.fill_view block
      rw [left] at whole
      refine ⟨ih.1.trans ?_, ih.2⟩
      rw [show next = (area.fill block).1 from kept, ← whole, take_full full, take_full full]

theorem Ostream.write_swallows (swallows : Swallows overflow) (os : Ostream capacity)
    (good : os.good = true) (item : Write) :
    (os.write overflow item).area.view = (os.area.view ++ item.bytes).take capacity ∧
      (os.write overflow item).good = true := by
  have notFail : os.fail = false := by simpa using (Bool.and_eq_true_iff.mp good).2
  cases item with
  | byte c =>
      obtain ⟨view, written⟩ := sputc_swallows swallows os.area c
      rw [write, if_pos good]
      exact ⟨view, by simp [Ostream.good, written, notFail]⟩
  | block bytes =>
      obtain ⟨view, written⟩ := sputn_swallows swallows os.area bytes
      rw [write, if_pos good]
      exact ⟨view, by simp [Ostream.good, written, notFail]⟩

/-- Writes to a good stream arrive as one text, cut off where the put area ends. -/
theorem Ostream.writeAll_swallows (swallows : Swallows overflow) (items : List Write)
    (os : Ostream capacity) (good : os.good = true) :
    (os.writeAll overflow items).area.view =
        (os.area.view ++ items.flatMap Write.bytes).take capacity ∧
      (os.writeAll overflow items).good = true := by
  induction items generalizing os with
  | nil => exact ⟨view_take (List.append_nil _).symm, good⟩
  | cons item rest ih =>
      obtain ⟨view, still⟩ := write_swallows swallows os good item
      obtain ⟨later, good⟩ := ih (os.write overflow item) still
      refine ⟨later.trans ?_, good⟩
      rw [view, take_take_append, List.flatMap_cons, List.append_assoc]

end Swallowing

end OutputStream
