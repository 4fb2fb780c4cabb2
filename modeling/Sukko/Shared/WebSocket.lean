import Sukko.Lib.GoString
/-
# WebSocket frames

The frames of RFC 6455 after unmasking, and the `wsutil.Reader` of `gobwas/ws` with its header checks on. The reader fails on a
header that the protocol does not allow at its place, and the connection ends.
-/

namespace Sukko.WebSocket

inductive Opcode
  | continuation
  | text
  | binary
  | close
  | ping
  | pong
  | reserved
deriving DecidableEq

structure Frame where
  op : Opcode
  fin : Bool
  payload : GoStr
deriving DecidableEq

/-- A reader that assembles fragments; `pending` is the message begun. -/
structure Reader where
  pending : Option (Opcode × GoStr)
deriving DecidableEq

inductive Read
  | failed
  | skip
  | closed
  | more (r : Reader)
  | message (r : Reader) (op : Opcode) (payload : GoStr)
deriving DecidableEq

def maxControlFramePayloadSize : Nat := 125

def Reader.control (r : Reader) (f : Frame) : Read :=
  if !f.fin || maxControlFramePayloadSize < f.payload.length then .failed
  else if f.op = .close ∧ r.pending = none then .closed
  else .skip

def Reader.continued (r : Reader) (f : Frame) : Read :=
  match r.pending with
  | none => .failed
  | some (op, sofar) =>
    if f.fin then .message ⟨none⟩ op (sofar ++ f.payload) else .more ⟨some (op, sofar ++ f.payload)⟩

def Reader.data (r : Reader) (f : Frame) : Read :=
  match r.pending with
  | some _ => .failed
  | none => if f.fin then .message ⟨none⟩ f.op f.payload else .more ⟨some (f.op, f.payload)⟩

/-- What one frame does to a reader. -/
def Reader.next (r : Reader) (f : Frame) : Read :=
  match f.op with
  | .reserved => .failed
  | .close | .ping | .pong => r.control f
  | .continuation => r.continued f
  | .text | .binary => r.data f

/-! ## What a frame can amount to -/

inductive Reader.Next (r : Reader) (f : Frame) : Read → Prop
  | failed : r.Next f .failed
  | skip : r.Next f .skip
  | closed : r.Next f .closed
  | ends {op : Opcode} {sofar : GoStr} (hp : r.pending = some (op, sofar)) :
      r.Next f (.message ⟨none⟩ op (sofar ++ f.payload))
  | continues {op : Opcode} {sofar : GoStr} (hp : r.pending = some (op, sofar)) :
      r.Next f (.more ⟨some (op, sofar ++ f.payload)⟩)
  | whole : r.Next f (.message ⟨none⟩ f.op f.payload)
  | begins (hfin : f.fin = false) : r.Next f (.more ⟨some (f.op, f.payload)⟩)

section
variable (r : Reader) (f : Frame)

theorem Reader.next_control : r.Next f (r.control f) := by
  unfold Reader.control
  split
  · exact .failed
  · split
    · exact .closed
    · exact .skip

theorem Reader.next_continued : r.Next f (r.continued f) := by
  unfold Reader.continued
  split
  · exact .failed
  · rename_i op sofar hp
    split
    · exact .ends hp
    · exact .continues hp

theorem Reader.next_data : r.Next f (r.data f) := by
  unfold Reader.data
  split
  · exact .failed
  · split
    · exact .whole
    · rename_i hf
      exact .begins (Bool.eq_false_iff.2 hf)

theorem Reader.next_cases : r.Next f (r.next f) := by
  unfold Reader.next
  split
  · exact .failed
  · exact r.next_control f
  · exact r.next_control f
  · exact r.next_control f
  · exact r.next_continued f
  · exact r.next_data f
  · exact r.next_data f

end

def Reader.NoText (r : Reader) : Prop := ∀ op sofar, r.pending = some (op, sofar) → op ≠ .text

theorem Reader.noText_empty : (⟨none⟩ : Reader).NoText := by
  intro op sofar h
  cases h

theorem Reader.next_reader {r r' : Reader} {f : Frame} (hr : r.NoText) (hf : f.op = .text → f.fin = true)
    (h : r.next f = .more r' ∨ ∃ op payload, r.next f = .message r' op payload) : r'.NoText := by
  have hn := r.next_cases f
  rcases h with h | ⟨op, payload, h⟩
  · rw [h] at hn
    cases hn with
    | continues hp =>
      intro op' sofar' hp'
      cases hp'
      exact hr _ _ hp
    | begins hfn =>
      intro op' sofar' hp' ht
      cases hp'
      rw [hf ht] at hfn
      cases hfn
  · rw [h] at hn
    cases hn with
    | ends | whole => exact noText_empty

theorem Reader.next_text {r r' : Reader} {f : Frame} {payload : GoStr} (hr : r.NoText)
    (h : r.next f = .message r' .text payload) : f.op = .text ∧ f.payload = payload := by
  have hn := r.next_cases f
  rw [h] at hn
  generalize hop : Opcode.text = op at hn
  cases hn with
  | ends hp => exact absurd hop.symm (hr _ _ hp)
  | whole => exact ⟨rfl, rfl⟩

end Sukko.WebSocket
