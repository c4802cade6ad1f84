import Mathlib.Data.List.Basic

-- RFC 4648 base64 over the standard alphabet, on ASCII bytes.
namespace ByosMail.Base64

def sextet (c : UInt8) : Option Nat :=
  let n := c.toNat
  if 65 ≤ n ∧ n ≤ 90 then some (n - 65)
  else if 97 ≤ n ∧ n ≤ 122 then some (n - 71)
  else if 48 ≤ n ∧ n ≤ 57 then some (n + 4)
  else if n = 43 then some 62
  else if n = 47 then some 63
  else none

def pad : UInt8 := 61

def fullGroup (a b c d : UInt8) : Option (List UInt8) := do
  let w ← sextet a
  let x ← sextet b
  let y ← sextet c
  let z ← sextet d
  return [UInt8.ofNat (w*4 + x/16),UInt8.ofNat (x%16*16 + y/4),UInt8.ofNat (y%4*64 + z)]

-- The last quantum may be padded; canonical encodings leave the unused bits zero.
def lastGroup (a b c d : UInt8) : Option (List UInt8) :=
  if d = pad then
    if c = pad then do
      let w ← sextet a
      let x ← sextet b
      if x%16 = 0 then some [UInt8.ofNat (w*4 + x/16)] else none
    else do
      let w ← sextet a
      let x ← sextet b
      let y ← sextet c
      if y%4 = 0 then some [UInt8.ofNat (w*4 + x/16),UInt8.ofNat (x%16*16 + y/4)] else none
  else fullGroup a b c d

def decode : List UInt8 → Option (List UInt8)
  | [] => some []
  | [a,b,c,d] => lastGroup a b c d
  | a :: b :: c :: d :: rest => do
    let head ← fullGroup a b c d
    let tail ← decode rest
    return head ++ tail
  | _ => none

-- Go's encoding/base64 skips carriage returns and line feeds anywhere in its input.
def decodeSkippingBreaks (text : List UInt8) : Option (List UInt8) :=
  decode (text.filter fun c => c ≠ 10 ∧ c ≠ 13)

-- Readers that ignore the unused bits of the last quantum, as Go's StdEncoding does unless it is Strict.
def looseGroup (a b c d : UInt8) : Option (List UInt8) :=
  if d = pad then
    if c = pad then do
      let w ← sextet a
      let x ← sextet b
      return [UInt8.ofNat (w*4 + x/16)]
    else do
      let w ← sextet a
      let x ← sextet b
      let y ← sextet c
      return [UInt8.ofNat (w*4 + x/16),UInt8.ofNat (x%16*16 + y/4)]
  else fullGroup a b c d

def decodeLoose : List UInt8 → Option (List UInt8)
  | [] => some []
  | [a,b,c,d] => looseGroup a b c d
  | a :: b :: c :: d :: rest => do
    let head ← fullGroup a b c d
    let tail ← decodeLoose rest
    return head ++ tail
  | _ => none

def decodeStd (text : List UInt8) : Option (List UInt8) := decodeLoose (text.filter fun c => c ≠ 10 ∧ c ≠ 13)

def Alphabetic (c : UInt8) : Prop := (sextet c).isSome ∨ c = pad

theorem alphabetic_not_break (known : Alphabetic c) : c ≠ 10 ∧ c ≠ 13 := by
  constructor <;> rintro rfl <;> simp [Alphabetic,sextet,pad] at known

theorem fullGroup_chars (decoded : fullGroup a b c d = some bytes) : ∀ e ∈ [a,b,c,d], Alphabetic e := by
  simp only [fullGroup,Option.bind_eq_bind,Option.bind_eq_some_iff] at decoded
  obtain ⟨w,hw,x,hx,y,hy,z,hz,-⟩ := decoded
  simp [Alphabetic,hw,hx,hy,hz]

theorem lastGroup_chars (decoded : lastGroup a b c d = some bytes) : ∀ e ∈ [a,b,c,d], Alphabetic e := by
  unfold lastGroup at decoded
  split at decoded
  · rename_i lastPad
    split at decoded
    · rename_i thirdPad
      simp only [Option.bind_eq_bind,Option.bind_eq_some_iff] at decoded
      obtain ⟨w,hw,x,hx,-⟩ := decoded
      simp [Alphabetic,hw,hx,thirdPad,lastPad]
    · simp only [Option.bind_eq_bind,Option.bind_eq_some_iff] at decoded
      obtain ⟨w,hw,x,hx,y,hy,-⟩ := decoded
      simp [Alphabetic,hw,hx,hy,lastPad]
  · exact fullGroup_chars decoded

theorem decode_chars (decoded : decode text = some bytes) : ∀ e ∈ text, Alphabetic e := by
  fun_induction decode text generalizing bytes with
  | case1 => simp
  | case2 a b c d => exact lastGroup_chars decoded
  | case3 a b c d rest more ih =>
    simp only [Option.bind_eq_bind,Option.bind_eq_some_iff] at decoded
    obtain ⟨head,first,tail,later,-⟩ := decoded
    have front := fullGroup_chars first
    have back := ih later
    simp only [List.mem_cons,List.not_mem_nil,or_false] at front ⊢
    intro e listed
    rcases listed with rfl | rfl | rfl | rfl | member
    · exact front _ (by simp)
    · exact front _ (by simp)
    · exact front _ (by simp)
    · exact front _ (by simp)
    · exact back e member
  | case4 => cases decoded

theorem filter_unbroken {text : List UInt8} (unbroken : ∀ c ∈ text, c ≠ 10 ∧ c ≠ 13) :
    text.filter (fun c => c ≠ 10 ∧ c ≠ 13) = text := by
  rw [List.filter_eq_self]
  intro c member
  simpa using unbroken c member

theorem decodeSkippingBreaks_unbroken (unbroken : ∀ c ∈ text, c ≠ 10 ∧ c ≠ 13) :
    decodeSkippingBreaks text = decode text := by
  rw [decodeSkippingBreaks,filter_unbroken unbroken]

theorem decodeSkippingBreaks_eq (decoded : decode text = some bytes) :
    decodeSkippingBreaks text = some bytes := by
  rw [decodeSkippingBreaks_unbroken (fun c member => alphabetic_not_break (decode_chars decoded c member)),decoded]

theorem looseGroup_eq (decoded : lastGroup a b c d = some bytes) : looseGroup a b c d = some bytes := by
  unfold lastGroup at decoded
  unfold looseGroup
  split at decoded
  · rename_i padded
    rw [if_pos padded]
    split at decoded
    · rename_i twice
      rw [if_pos twice]
      simp only [Option.bind_eq_bind,Option.bind_eq_some_iff] at decoded
      obtain ⟨w,first,x,second,equal⟩ := decoded
      obtain ⟨-,rfl⟩ := Option.ite_some_none_eq_some.mp equal
      rw [first,second]
      rfl
    · rename_i once
      rw [if_neg once]
      simp only [Option.bind_eq_bind,Option.bind_eq_some_iff] at decoded
      obtain ⟨w,first,x,second,y,third,equal⟩ := decoded
      obtain ⟨-,rfl⟩ := Option.ite_some_none_eq_some.mp equal
      rw [first,second,third]
      rfl
  · rename_i full
    rw [if_neg full]
    exact decoded

theorem decodeLoose_eq (decoded : decode text = some bytes) : decodeLoose text = some bytes := by
  fun_induction decode text generalizing bytes with
  | case1 => exact decoded
  | case2 a b c d => exact looseGroup_eq decoded
  | case3 a b c d rest more ih =>
    simp only [Option.bind_eq_bind,Option.bind_eq_some_iff] at decoded
    obtain ⟨head,first,tail,later,equal⟩ := decoded
    rw [decodeLoose]
    · rw [first,ih later]
      exact equal
    · exact more
  | case4 => cases decoded

theorem decodeStd_eq (decoded : decode text = some bytes) : decodeStd text = some bytes := by
  have unbroken := filter_unbroken fun c member => alphabetic_not_break (decode_chars decoded c member)
  rw [decodeStd,unbroken,decodeLoose_eq decoded]

def letter (n : Nat) : UInt8 :=
  if n < 26 then UInt8.ofNat (65 + n)
  else if n < 52 then UInt8.ofNat (71 + n)
  else if n < 62 then UInt8.ofNat (n - 4)
  else if n = 62 then 43
  else 47

def encode : List UInt8 → List UInt8
  | [] => []
  | [a] => [letter (a.toNat / 4),letter (a.toNat % 4 * 16),pad,pad]
  | [a,b] => [letter (a.toNat / 4),letter (a.toNat % 4 * 16 + b.toNat / 16),letter (b.toNat % 16 * 4),pad]
  | a :: b :: c :: rest =>
    letter (a.toNat / 4) :: letter (a.toNat % 4 * 16 + b.toNat / 16) :: letter (b.toNat % 16 * 4 + c.toNat / 64) ::
      letter (c.toNat % 64) :: encode rest

theorem sextet_letter (small : n < 64) : sextet (letter n) = some n ∧ letter n ≠ pad := by
  have all : ∀ d : Fin 64, sextet (letter d) = some d.val ∧ letter d ≠ pad := by decide
  exact all ⟨n,small⟩

theorem letter_sextet (known : sextet c = some n) : n < 64 ∧ c = letter n := by
  have all : ∀ d : Fin 256, ∀ n ∈ sextet (UInt8.ofNat d), n < 64 ∧ UInt8.ofNat d = letter n := by decide +kernel
  have here := all ⟨c.toNat,c.toNat_lt⟩ n
  rw [UInt8.ofNat_toNat] at here
  exact here known

theorem byte_ofNat (a : UInt8) (equal : n = a.toNat) : UInt8.ofNat n = a := by
  rw [equal,UInt8.ofNat_toNat]

theorem fullGroup_encode (a b c : UInt8) :
    fullGroup (letter (a.toNat / 4)) (letter (a.toNat % 4 * 16 + b.toNat / 16))
      (letter (b.toNat % 16 * 4 + c.toNat / 64)) (letter (c.toNat % 64)) = some [a,b,c] := by
  have := a.toNat_lt
  have := b.toNat_lt
  have := c.toNat_lt
  simp only [fullGroup,(sextet_letter (show a.toNat / 4 < 64 by omega)).1,
    (sextet_letter (show a.toNat % 4 * 16 + b.toNat / 16 < 64 by omega)).1,
    (sextet_letter (show b.toNat % 16 * 4 + c.toNat / 64 < 64 by omega)).1,
    (sextet_letter (show c.toNat % 64 < 64 by omega)).1,Option.bind_eq_bind,Option.bind_some,Option.pure_def]
  rw [byte_ofNat a (by omega),byte_ofNat b (by omega),byte_ofNat c (by omega)]

theorem decode_group (more : rest ≠ []) :
    decode (a :: b :: c :: d :: rest) = (fullGroup a b c d).bind fun head => (decode rest).bind fun tail => some (head ++ tail) := by
  cases rest with
  | nil => exact absurd rfl more
  | cons e rest =>
    rw [decode]
    · rfl
    · simp

theorem decode_encode (bytes : List UInt8) : decode (encode bytes) = some bytes := by
  fun_induction encode bytes with
  | case1 => rfl
  | case2 a =>
    have := a.toNat_lt
    simp only [decode,lastGroup,(sextet_letter (show a.toNat / 4 < 64 by omega)).1,
      (sextet_letter (show a.toNat % 4 * 16 < 64 by omega)).1,if_true,Option.bind_eq_bind,Option.bind_some]
    rw [if_pos (by omega),byte_ofNat a (by omega)]
  | case3 a b =>
    have := a.toNat_lt
    have := b.toNat_lt
    have third := sextet_letter (show b.toNat % 16 * 4 < 64 by omega)
    simp only [decode,lastGroup,if_true,if_neg third.2,(sextet_letter (show a.toNat / 4 < 64 by omega)).1,
      (sextet_letter (show a.toNat % 4 * 16 + b.toNat / 16 < 64 by omega)).1,third.1,Option.bind_eq_bind,Option.bind_some]
    rw [if_pos (by omega),byte_ofNat a (by omega),byte_ofNat b (by omega)]
  | case4 a b c rest ih =>
    have group := fullGroup_encode a b c
    by_cases more : encode rest = []
    · have empty : rest = [] := by
        rw [more] at ih
        cases ih
        rfl
      subst empty
      have := c.toNat_lt
      have last := (sextet_letter (show c.toNat % 64 < 64 by omega)).2
      simp only [encode,decode,lastGroup,if_neg last]
      exact group
    · rw [decode_group more,group,ih]
      rfl

theorem encode_fullGroup (decoded : fullGroup a b c d = some bytes) : ∃ x y z, bytes = [x,y,z] ∧ encode [x,y,z] = [a,b,c,d] := by
  simp only [fullGroup,Option.bind_eq_bind,Option.bind_eq_some_iff,Option.pure_def,Option.some.injEq] at decoded
  obtain ⟨w,hw,x,hx,y,hy,z,hz,rfl⟩ := decoded
  obtain ⟨wSmall,rfl⟩ := letter_sextet hw
  obtain ⟨xSmall,rfl⟩ := letter_sextet hx
  obtain ⟨ySmall,rfl⟩ := letter_sextet hy
  obtain ⟨zSmall,rfl⟩ := letter_sextet hz
  refine ⟨_,_,_,rfl,?_⟩
  have first : (UInt8.ofNat (w*4 + x/16)).toNat = w*4 + x/16 := Nat.mod_eq_of_lt (by omega)
  have second : (UInt8.ofNat (x%16*16 + y/4)).toNat = x%16*16 + y/4 := Nat.mod_eq_of_lt (by omega)
  have third : (UInt8.ofNat (y%4*64 + z)).toNat = y%4*64 + z := Nat.mod_eq_of_lt (by omega)
  have high : (w*4 + x/16) / 4 = w := by omega
  have upper : (w*4 + x/16) % 4 * 16 + (x%16*16 + y/4) / 16 = x := by omega
  have lower : (x%16*16 + y/4) % 16 * 4 + (y%4*64 + z) / 64 = y := by omega
  have low : (y%4*64 + z) % 64 = z := by omega
  simp only [encode,first,second,third,high,upper,lower,low]

theorem encode_lastGroup (decoded : lastGroup a b c d = some bytes) : encode bytes = [a,b,c,d] := by
  unfold lastGroup at decoded
  split at decoded
  · rename_i lastPad
    subst lastPad
    split at decoded
    · rename_i thirdPad
      subst thirdPad
      simp only [Option.bind_eq_bind,Option.bind_eq_some_iff] at decoded
      obtain ⟨w,hw,x,hx,decoded⟩ := decoded
      obtain ⟨wSmall,rfl⟩ := letter_sextet hw
      obtain ⟨xSmall,rfl⟩ := letter_sextet hx
      split at decoded
      · cases decoded
        have first : (UInt8.ofNat (w*4 + x/16)).toNat = w*4 + x/16 := Nat.mod_eq_of_lt (by omega)
        have high : (w*4 + x/16) / 4 = w := by omega
        have low : (w*4 + x/16) % 4 * 16 = x := by omega
        simp only [encode,first,high,low]
      · cases decoded
    · simp only [Option.bind_eq_bind,Option.bind_eq_some_iff] at decoded
      obtain ⟨w,hw,x,hx,y,hy,decoded⟩ := decoded
      obtain ⟨wSmall,rfl⟩ := letter_sextet hw
      obtain ⟨xSmall,rfl⟩ := letter_sextet hx
      obtain ⟨ySmall,rfl⟩ := letter_sextet hy
      split at decoded
      · cases decoded
        have first : (UInt8.ofNat (w*4 + x/16)).toNat = w*4 + x/16 := Nat.mod_eq_of_lt (by omega)
        have second : (UInt8.ofNat (x%16*16 + y/4)).toNat = x%16*16 + y/4 := Nat.mod_eq_of_lt (by omega)
        have high : (w*4 + x/16) / 4 = w := by omega
        have middle : (w*4 + x/16) % 4 * 16 + (x%16*16 + y/4) / 16 = x := by omega
        have low : (x%16*16 + y/4) % 16 * 4 = y := by omega
        simp only [encode,first,second,high,middle,low]
      · cases decoded
  · obtain ⟨x,y,z,rfl,encoded⟩ := encode_fullGroup decoded
    exact encoded

-- The strict decoder takes the encoding of its result and nothing else.
theorem encode_decode (decoded : decode text = some bytes) : encode bytes = text := by
  fun_induction decode text generalizing bytes with
  | case1 =>
    cases decoded
    rfl
  | case2 a b c d => exact encode_lastGroup decoded
  | case3 a b c d rest more ih =>
    simp only [Option.bind_eq_bind,Option.bind_eq_some_iff,Option.pure_def,Option.some.injEq] at decoded
    obtain ⟨head,first,tail,later,rfl⟩ := decoded
    obtain ⟨x,y,z,rfl,encoded⟩ := encode_fullGroup first
    have back := ih later
    simp only [encode,List.cons.injEq,and_true] at encoded
    obtain ⟨ha,hb,hc,hd⟩ := encoded
    simp only [List.cons_append,List.nil_append,encode,ha,hb,hc,hd,back]
  | case4 => cases decoded

theorem encode_grows (bytes : List UInt8) : 4 * bytes.length ≤ 3 * (encode bytes).length := by
  fun_induction encode bytes with
  | case1 => simp
  | case2 => simp
  | case3 => simp
  | case4 a b c rest ih =>
    simp only [List.length_cons]
    omega

theorem encode_length (bytes : List UInt8) : (encode bytes).length % 4 = 0 := by
  fun_induction encode bytes with
  | case1 => rfl
  | case2 => simp
  | case3 => simp
  | case4 a b c rest ih =>
    simp only [List.length_cons]
    omega

end ByosMail.Base64
