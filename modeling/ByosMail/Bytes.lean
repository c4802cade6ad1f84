import Mathlib.Algebra.Group.Nat.Defs
import Mathlib.Data.List.Basic

-- Fixed-width numerals, byte strings and length-prefixed fields.
namespace ByosMail.Bytes

-- The last width digits of n, most significant first, in some alphabet.
def numeral (write : Nat → α) (base : Nat) : Nat → Nat → List α
  | 0,_ => []
  | width+1,n => numeral write base width (n / base) ++ [write (n % base)]

@[simp]
theorem numeral_length (write : Nat → α) (base width n : Nat) : (numeral write base width n).length = width := by
  induction width generalizing n with
  | zero => rfl
  | succ width ih => simp [numeral,ih]

theorem numeral_injective {write : Nat → α} (legible : ∀ d < base, ∀ d' < base, write d = write d' → d = d')
    (positive : 0 < base) (small : a < base ^ width) (small' : b < base ^ width)
    (equal : numeral write base width a = numeral write base width b) : a = b := by
  induction width generalizing a b with
  | zero =>
    rw [Nat.pow_zero] at small small'
    omega
  | succ width ih =>
    have parts := List.append_inj equal (by simp)
    have high : a / base = b / base := by
      refine ih ?_ ?_ parts.1
      · exact Nat.div_lt_of_lt_mul (by rwa [← Nat.pow_succ'])
      · exact Nat.div_lt_of_lt_mul (by rwa [← Nat.pow_succ'])
    have low : a % base = b % base :=
      legible _ (Nat.mod_lt _ positive) _ (Nat.mod_lt _ positive) (List.cons.inj parts.2).1
    rw [← Nat.div_add_mod a base,← Nat.div_add_mod b base,high,low]

-- Only the low 8*width bits are written, as a machine integer conversion would.
def bigEndian (width n : Nat) : List UInt8 := numeral UInt8.ofNat 256 width n

@[simp]
theorem bigEndian_length (width n : Nat) : (bigEndian width n).length = width := numeral_length _ _ _ _

theorem bigEndian_injective (small : a < 256 ^ width) (small' : b < 256 ^ width)
    (equal : bigEndian width a = bigEndian width b) : a = b := by
  refine numeral_injective ?_ (by decide) small small' equal
  intro d bound d' bound' same
  have same := congrArg UInt8.toNat same
  simpa [Nat.mod_eq_of_lt bound,Nat.mod_eq_of_lt bound'] using same

-- ASCII decimal, with leading zeros.
def decimal (width n : Nat) : List Char := numeral (fun d => Char.ofNat (48 + d)) 10 width n

theorem decimal_injective (small : a < 10 ^ width) (small' : b < 10 ^ width)
    (equal : decimal width a = decimal width b) : a = b := by
  refine numeral_injective ?_ (by decide) small small' equal
  decide

-- A field behind its own length; the reader knows the width of the length only.
def framed (width : Nat) (field : List UInt8) : List UInt8 :=
  bigEndian width field.length ++ field

theorem framed_injective (small : x.length < 256 ^ width) (small' : y.length < 256 ^ width)
    (equal : framed width x ++ rest = framed width y ++ rest') : x = y ∧ rest = rest' := by
  simp only [framed,List.append_assoc] at equal
  obtain ⟨header,body⟩ := List.append_inj equal (by simp)
  exact List.append_inj body (bigEndian_injective small small' header)

-- Writing into a preallocated buffer at an offset: bytes beyond its end are dropped,
-- and the buffer keeps its length.
def blit (buffer : List UInt8) (pos : Nat) (data : List UInt8) : List UInt8 :=
  let fits := data.take (buffer.length - pos)
  buffer.take pos ++ fits ++ buffer.drop (pos + fits.length)

def blank (n : Nat) : List UInt8 := List.replicate n 0

-- The part written so far is followed by zeros; writing right behind it appends.
theorem blit_append (done data : List UInt8) (n : Nat) (fits : data.length ≤ n) :
    blit (done ++ blank n) done.length data = (done ++ data) ++ blank (n - data.length) := by
  have room : (done ++ blank n).length - done.length = n := by simp [blank]
  have whole : data.take n = data := List.take_of_length_le fits
  simp only [blit,room,whole]
  simp [blank,List.drop_append]

-- A buffer filled from the front, with the offset of the next write.
structure Cursor where
  buffer : List UInt8
  pos : Nat

def Cursor.make (n : Nat) : Cursor := ⟨blank n,0⟩

def Cursor.put (c : Cursor) (data : List UInt8) : Cursor :=
  ⟨blit c.buffer c.pos data,c.pos + data.length⟩

structure Cursor.Holds (c : Cursor) (done : List UInt8) (room : Nat) : Prop where
  content : c.buffer = done ++ blank room
  offset : c.pos = done.length

theorem Cursor.make_holds (n : Nat) : (Cursor.make n).Holds [] n := ⟨rfl,rfl⟩

theorem Cursor.Holds.put {c : Cursor} (data : List UInt8) (holds : c.Holds done (data.length + room)) :
    (c.put data).Holds (done ++ data) room := by
  obtain ⟨buffer,pos⟩ := holds
  refine ⟨?_,by simp [Cursor.put,pos]⟩
  simp only [Cursor.put,buffer,pos]
  simpa using blit_append done data (data.length + room) (Nat.le_add_right _ _)

theorem Cursor.Holds.full {c : Cursor} (holds : c.Holds done 0) : c.buffer = done := by
  simpa [blank] using holds.content

end ByosMail.Bytes
