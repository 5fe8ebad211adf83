import MyServer.LogStream
import MyServer.OutputStream

/-!
`FixedStringBuf` and `StreamAdapter::to_string`, byte for byte. A record is what its
`debug_print` writes into the stream it is given.
-/

namespace MyServer

namespace StreamAdapter

open OutputStream

abbrev Record := List Write

abbrev FixedStringBuf (N : Nat) := PutArea N

namespace FixedStringBuf

variable {N : Nat}

def reset (buf : FixedStringBuf N) : FixedStringBuf N := buf.setp

def view (buf : FixedStringBuf N) : List UInt8 := PutArea.view buf

def overflow (buf : FixedStringBuf N) (ch : Int) : FixedStringBuf N × Int := (buf, ch)

theorem overflow_swallows : Swallows (overflow : Overflow N) :=
  fun _ c => ⟨rfl, toIntType_ne_eof c⟩

end FixedStringBuf

/-- `to_string`; a string stream takes every byte. -/
def toString (record : Record) : List UInt8 :=
  record.foldl (fun text item => text ++ item.bytes) []

variable {N : Nat}

/-- `buf.reset(); os.clear();` before each record. -/
def refresh (os : Ostream N) : Ostream N :=
  { os with area := FixedStringBuf.reset os.area }.clear

def print (os : Ostream N) (record : Record) : Ostream N :=
  (refresh os).writeAll FixedStringBuf.overflow record

/-- The views after each of the records, printed one after another. -/
def views (os : Ostream N) : List Record → List (List UInt8)
  | [] => []
  | record :: rest => FixedStringBuf.view (print os record).area :: views (print os record) rest

theorem toString_eq (record : Record) : toString record = record.flatMap Write.bytes := by
  suffices general : ∀ text, record.foldl (fun text item => text ++ item.bytes) text =
      text ++ record.flatMap Write.bytes by
    exact (general []).trans (List.nil_append _)
  induction record with
  | nil => simp
  | cons item rest ih =>
      intro text
      rw [List.foldl_cons, ih, List.flatMap_cons, List.append_assoc]

/-- A record, whole or up to any of its writes. -/
theorem print_view (os : Ostream N) (written : Record) :
    FixedStringBuf.view (print os written).area =
        (toString written).take (min N (toString written).length) ∧
      (print os written).good = true := by
  obtain ⟨view, good⟩ := Ostream.writeAll_swallows FixedStringBuf.overflow_swallows written
    (refresh os) rfl
  refine ⟨view.trans ?_, good⟩
  have empty : (refresh os).area.view = [] := PutArea.view_setp os.area
  rw [empty, List.nil_append, ← toString_eq]
  exact List.take_eq_take_min

/-- After each record the view is what fits of the record's text, and after every write the
stream is good, for any records and any buffer and stream to begin with. -/
theorem fixed_buffer_truncates (os : Ostream N) (records : List Record) :
    views os records = (records.map fun record =>
      (toString record).take (min N (toString record).length)) ∧
    ∀ written, (print (records.foldl print os) written).good = true := by
  refine ⟨?_, fun written => (print_view _ written).2⟩
  induction records generalizing os with
  | nil => rfl
  | cons record rest ih => rw [views, (print_view os record).1, ih, List.map_cons]

/-! The records of the log. -/

def bytesOf (text : Text) : List UInt8 := text.map fun c => UInt8.ofNat c.toNat

def recordOf (record : LoggedPayload) : Record :=
  record.debugPrint.map fun block => .block (bytesOf block)

theorem toString_recordOf (record : LoggedPayload) :
    toString (recordOf record) = bytesOf record.text := by
  rw [toString_eq, recordOf, List.flatMap_map, LoggedPayload.text, bytesOf, List.map_flatten,
    List.flatMap_def]
  rfl

/-- What `submit_impl` publishes, character by character, is the view of the buffer. -/
theorem submitImpl_bytes (os : Ostream 1024) (chars : BufferStream 1024) (record : LoggedPayload) :
    FixedStringBuf.view (print os (recordOf record)).area = bytesOf (submitImpl chars record).1 := by
  rw [(print_view os _).1, ← List.take_eq_take_min, toString_recordOf, submitImpl_view, bytesOf,
    bytesOf, List.map_take]

end StreamAdapter

end MyServer
