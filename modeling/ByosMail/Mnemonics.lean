import ByosMail.HexText

-- Recovery phrases: generate_mnemonic and mnemonic_to_entropy (packages/crypto-core/src/lib.rs)
-- over the bip39 crate.
namespace ByosMail.Mnemonics
open HexText MessageCrypto

-- The crate's type, with the word list fixed to English.
structure Bip39 where
  Mnemonic : Type
  from_entropy_in : List UInt8 → Option Mnemonic
  parse_in : String → Option Mnemonic
  to_entropy : Mnemonic → List UInt8
  to_string : Mnemonic → String

-- Phrases of 12, 15, 18, 21 and 24 words.
def supported (entropy : List UInt8) : Bool := entropy.length ∈ [16,20,24,28,32]

-- The standard: for each supported length, phrases stand for the byte strings of that length
-- one to one, and what is written out is read again.
structure Bip39.Lawful (lib : Bip39) : Prop where
  sized : ∀ m, supported (lib.to_entropy m) = true
  made : ∀ entropy, supported entropy = true → ∃ m, lib.from_entropy_in entropy = some m ∧ lib.to_entropy m = entropy
  refused : ∀ entropy, supported entropy = false → lib.from_entropy_in entropy = none
  unique : ∀ m, lib.from_entropy_in (lib.to_entropy m) = some m
  read : ∀ m, lib.parse_in (lib.to_string m) = some m

section
variable (lib : Bip39)

-- [u8]::copy_from_slice into an array of n bytes panics at a source of another length.
def copy_from_slice (n : Nat) (src : List UInt8) : Outcome CryptoError (Sized n) :=
  if sized : src.length = n then .ok ⟨src,sized⟩ else .panic

-- The argument is what rand::random drew.
def generate_mnemonic (entropy : Sized 32) : Outcome CryptoError String :=
  match lib.from_entropy_in entropy.val with
  | some mnemonic => .ok (lib.to_string mnemonic)
  | none => .err .invalidMnemonic

def mnemonic_to_entropy (mnemonic : String) : Outcome CryptoError (Sized 32) :=
  match lib.parse_in mnemonic with
  | none => .err .invalidMnemonic
  | some m => copy_from_slice 32 (lib.to_entropy m)

-- The phrase is a valid one of fewer than 24 words.
def Shorter (mnemonic : String) : Prop :=
  ∃ m, lib.parse_in mnemonic = some m ∧ (lib.to_entropy m).length ∈ [16,20,24,28]

end

variable {lib : Bip39}

theorem entropy_panics (lawful : lib.Lawful) (mnemonic : String) :
    mnemonic_to_entropy lib mnemonic = .panic ↔ Shorter lib mnemonic := by
  unfold mnemonic_to_entropy Shorter
  cases parsed : lib.parse_in mnemonic with
  | none => simp
  | some m =>
    have sized := lawful.sized m
    simp only [supported,List.mem_cons,decide_eq_true_eq,List.not_mem_nil,or_false] at sized
    simp only [copy_from_slice]
    split
    · rename_i whole
      simp [whole]
    · rename_i other
      simp only [Option.some.injEq,exists_eq_left',List.mem_cons,List.not_mem_nil,or_false,true_iff]
      omega

theorem generated_read (lawful : lib.Lawful) (entropy : Sized 32) :
    ∃ mnemonic, generate_mnemonic lib entropy = .ok mnemonic ∧ mnemonic_to_entropy lib mnemonic = .ok entropy := by
  have fits : supported entropy.val = true := by simp [supported,entropy.property]
  obtain ⟨m,made,back⟩ := lawful.made entropy.val fits
  refine ⟨lib.to_string m,by simp [generate_mnemonic,made],?_⟩
  simp only [mnemonic_to_entropy,lawful.read m,copy_from_slice,back,entropy.property,dif_pos]

-- Every phrase gets an answer but the valid ones of fewer than 24 words, and every entropy
-- comes back from the phrase made of it.
theorem mnemonic_answers (lib : Bip39) (lawful : lib.Lawful) :
    (∀ mnemonic, mnemonic_to_entropy lib mnemonic ≠ .panic ↔ ¬Shorter lib mnemonic) ∧
      ∀ entropy, ∃ mnemonic, generate_mnemonic lib entropy = .ok mnemonic ∧
        mnemonic_to_entropy lib mnemonic = .ok entropy :=
  ⟨fun mnemonic => not_congr (entropy_panics lawful mnemonic),generated_read lawful⟩

-- A library with the two phrases of zeros the standard has for 16 and for 32 bytes; the other
-- phrases are made up.
def phrase (words : Nat) (last : String) : String := String.join (List.replicate words "abandon ") ++ last

def zeros : List (List UInt8 × String) :=
  [(List.replicate 16 0,phrase 11 "about"),(List.replicate 32 0,phrase 23 "art")]

def sample : Bip39 where
  Mnemonic := {entropy : List UInt8 // supported entropy = true}
  from_entropy_in entropy := if fits : supported entropy = true then some ⟨entropy,fits⟩ else none
  parse_in text :=
    match zeros.find? (·.2 = text) with
    | some entry => if fits : supported entry.1 = true then some ⟨entry.1,fits⟩ else none
    | none =>
      match Hex.decode text.toList with
      | some entropy => if fits : supported entropy = true then some ⟨entropy,fits⟩ else none
      | none => none
  to_entropy m := m.val
  to_string m :=
    match zeros.lookup m.val with
    | some text => text
    | none => String.ofList (Hex.encode m.val)

theorem zeros_supported : ∀ entry ∈ zeros, supported entry.1 = true := by decide

theorem zeros_apart : ∀ entry ∈ zeros, zeros.find? (·.2 = entry.2) = some entry ∧
    Hex.decode entry.2.toList = none := by
  decide +kernel

theorem sample_read (m : sample.Mnemonic) : sample.parse_in (sample.to_string m) = some m := by
  obtain ⟨entropy,fits⟩ := m
  simp only [sample]
  cases known : zeros.lookup entropy with
  | some text =>
    obtain ⟨front,back,listed,-⟩ := List.lookup_eq_some_iff.mp known
    have member : (entropy,text) ∈ zeros := by simp [listed]
    simp only [(zeros_apart _ member).1]
    exact dif_pos fits
  | none =>
    have unlisted : zeros.find? (·.2 = String.ofList (Hex.encode entropy)) = none := by
      rw [List.find?_eq_none]
      intro entry member same
      have text := of_decide_eq_true same
      have decoded := (zeros_apart entry member).2
      rw [text,String.toList_ofList,Hex.decode_encode] at decoded
      cases decoded
    simp only [unlisted,String.toList_ofList,Hex.decode_encode]
    exact dif_pos fits

theorem sample_lawful : sample.Lawful where
  sized m := m.property
  made entropy fits := ⟨⟨entropy,fits⟩,dif_pos fits,rfl⟩
  refused entropy unfit := dif_neg (by rw [unfit]; exact Bool.false_ne_true)
  unique m := dif_pos m.property
  read := sample_read

theorem sample_parses (member : (entropy,text) ∈ zeros) :
    ∃ m, sample.parse_in text = some m ∧ sample.to_entropy m = entropy := by
  have fits := zeros_supported _ member
  refine ⟨⟨entropy,fits⟩,?_,rfl⟩
  simp only [sample,(zeros_apart _ member).1]
  exact dif_pos fits

theorem mnemonic_answers_sample : mnemonic_to_entropy sample (phrase 23 "art") ≠ .panic := by
  refine ((mnemonic_answers sample sample_lawful).1 _).mpr ?_
  rintro ⟨m,parsed,short⟩
  have known : (List.replicate 32 0,phrase 23 "art") ∈ zeros := by simp [zeros]
  obtain ⟨m',parsed',zero⟩ := sample_parses known
  rw [parsed'] at parsed
  have same := Option.some.inj parsed
  rw [← same,zero,List.length_replicate] at short
  revert short
  decide

-- The phrase of twelve words is valid, and its sixteen bytes do not fill the array.
theorem twelve_words_panic : ¬∀ lib : Bip39, lib.Lawful →
    (∀ mnemonic, mnemonic_to_entropy lib mnemonic ≠ .panic) ∧
      ∀ entropy, ∃ mnemonic, generate_mnemonic lib entropy = .ok mnemonic ∧
        mnemonic_to_entropy lib mnemonic = .ok entropy := by
  intro all
  have known : (List.replicate 16 0,phrase 11 "about") ∈ zeros := by simp [zeros]
  obtain ⟨m,parsed,zero⟩ := sample_parses known
  refine (all sample sample_lawful).1 (phrase 11 "about") ?_
  rw [entropy_panics sample_lawful]
  exact ⟨m,parsed,by rw [zero,List.length_replicate]; decide⟩

end ByosMail.Mnemonics
