import ByosMail.AuthAnswers

-- What a masked recovery destination can tell: maskRecoveryDestination
-- (services/api/recovery_flow.go) is a function of a view that leaves the rest out.
namespace ByosMail.RecoveryMasks
open GoText AuthAnswers
open Utf8 (bytesOf)

-- First byte, last byte and whether there are more than two.
structure Ends where
  first : Option UInt8
  last : Option UInt8
  longer : Bool
  deriving DecidableEq

def ends (name : List UInt8) : Ends := ⟨name.head?,name.getLast?,2 < name.length⟩

inductive View where
  | email (parts : Option (Ends × List Char))
  -- The last four bytes and whether there are more than four.
  | phone (tail : List UInt8) (longer : Bool)
  | other (empty : Bool)
  deriving DecidableEq

def addressParts (dest : String) : Option (List Char × List Char) :=
  match splitFields (· = '@') (trimSpace dest).toList with
  | [name,domain] => some (name,domain)
  | _ => none

def view (dest method : String) : View :=
  if method = "email" then .email ((addressParts dest).map fun p => (ends (Utf8.encode p.1),p.2))
  else if method = "phone" then
    let dest := bytesOf (trimSpace dest)
    .phone (dest.drop (dest.length - 4)) (4 < dest.length)
  else .other (trimSpace dest = "")

def mask : View → Option (List UInt8)
  | .email none => some (bytesOf "***")
  | .email (some (⟨none,_,_⟩,_)) => none
  | .email (some (⟨some first,last,longer⟩,domain)) =>
    if longer then some (first :: bytesOf "***" ++ last.toList ++ bytesOf "@" ++ Utf8.encode domain)
    else some (first :: bytesOf "***@" ++ Utf8.encode domain)
  | .phone tail longer => if longer then some (bytesOf "***-***-" ++ tail) else some (bytesOf "***")
  | .other empty => some (bytesOf (if empty then "***" else "Authenticator App"))

theorem last_byte (name : List UInt8) : name.drop (name.length - 1) = name.getLast?.toList := by
  rcases List.eq_nil_or_concat name with rfl | ⟨front,last,rfl⟩
  · rfl
  · simp

theorem mask_email (dest : String) : maskRecoveryDestination dest "email" = mask (view dest "email") := by
  rw [maskRecoveryDestination,view,if_pos rfl,addressParts]
  dsimp only
  by_cases empty : trimSpace dest = ""
  · rw [if_pos empty,empty]
    rfl
  · rw [if_neg empty,if_pos rfl]
    generalize splitFields (· = '@') (trimSpace dest).toList = parts
    match parts with
    | [] => rfl
    | [_] => rfl
    | _ :: _ :: _ :: _ => rfl
    | [name,domain] =>
      dsimp only [Option.map_some]
      cases bytes : Utf8.encode name with
      | nil => rfl
      | cons first rest =>
        simp only [ends,List.head?_cons,mask,last_byte]
        by_cases short : (first :: rest).length ≤ 2
        · rw [if_pos short,if_neg (by simpa using short)]
        · rw [if_neg short,if_pos (decide_eq_true (Nat.not_le.mp short))]

theorem mask_phone (dest : String) : maskRecoveryDestination dest "phone" = mask (view dest "phone") := by
  have method : ¬"phone" = "email" := by decide
  rw [maskRecoveryDestination,view,if_neg method,if_pos rfl]
  dsimp only
  by_cases empty : trimSpace dest = ""
  · rw [if_pos empty,empty]
    rfl
  · rw [if_neg empty,if_neg method,if_pos rfl]
    simp only [mask]
    by_cases short : (bytesOf (trimSpace dest)).length ≤ 4
    · rw [if_pos short,if_neg (by simpa using short)]
    · rw [if_neg short,if_pos (decide_eq_true (Nat.not_le.mp short))]

theorem mask_view (dest method : String) : maskRecoveryDestination dest method = mask (view dest method) := by
  by_cases email : method = "email"
  · rw [email]
    exact mask_email dest
  · by_cases phone : method = "phone"
    · rw [phone]
      exact mask_phone dest
    · rw [maskRecoveryDestination,view,if_neg email,if_neg phone]
      simp only [mask,email,phone,if_false]
      by_cases empty : trimSpace dest = "" <;> simp [empty]

def headless (dest : String) : Bool :=
  match (trimSpace dest).toList with
  | '@' :: domain => !domain.contains '@'
  | _ => false

theorem splitFields_present (f : α → Bool) (text : List α) : splitFields f text ≠ [] := by
  cases text with
  | nil => simp [splitFields]
  | cons c rest =>
    unfold splitFields
    split
    · simp
    · split <;> simp

theorem splitFields_single {text : List α} (single : splitFields f text = [field]) : field = text := by
  induction text generalizing field with
  | nil =>
    cases single
    rfl
  | cons c rest ih =>
    unfold splitFields at single
    split at single
    · exact absurd (List.cons.inj single).2 (splitFields_present f rest)
    · split at single
      · rename_i none
        exact absurd none (splitFields_present f rest)
      · rename_i first others fields
        obtain ⟨rfl,rfl⟩ := List.cons.inj single
        rw [ih fields]

theorem headless_parts (dest : String) : headless dest = true ↔ ∃ domain, addressParts dest = some ([],domain) := by
  unfold headless addressParts
  generalize (trimSpace dest).toList = text
  constructor
  · intro bare
    split at bare
    · rename_i domain
      have clear : ∀ c ∈ domain, decide (c = '@') = false := by
        intro c member
        rw [decide_eq_false_iff_not]
        rintro rfl
        simp [member] at bare
      exact ⟨domain,by simp [splitFields,splitFields_whole clear]⟩
    · cases bare
  · rintro ⟨domain,parts⟩
    split at parts
    · rename_i name rest fields
      cases parts
      cases text with
      | nil => cases fields
      | cons c text =>
        unfold splitFields at fields
        split at fields
        · rename_i sign
          obtain rfl : c = '@' := by simpa using sign
          have single := (List.cons.inj fields).2
          obtain rfl := splitFields_single single
          have clear := splitFields_unsplit (single ▸ List.mem_cons_self)
          simp only [Bool.not_eq_true',List.contains_eq_any_beq,List.any_eq_false,beq_iff_eq]
          intro d member same
          exact of_decide_eq_false (clear d member) same.symm
        · split at fields <;> cases fields
    · cases parts

theorem mask_none (dest method : String) :
    maskRecoveryDestination dest method = none ↔ method = "email" ∧ headless dest = true := by
  rw [mask_view,headless_parts,view]
  by_cases email : method = "email"
  · simp only [email,if_true,true_and]
    cases parts : addressParts dest with
    | none => simp [mask]
    | some p =>
      obtain ⟨name,domain⟩ := p
      cases name with
      | nil => simp [mask,ends]
      | cons c name =>
        obtain ⟨b,used,bytes,-⟩ := Utf8.encodeChar_cons c
        simp only [Option.map_some,ends,Utf8.encode_cons,bytes,List.cons_append,List.head?_cons,mask]
        split <;> simp
  · simp only [email,if_false,false_and,iff_false]
    split
    · simp only [mask]
      split <;> simp
    · simp [mask]

-- The mask of a destination is made and tells its view only, unless an e-mail address has
-- nothing before its '@'; then there is no mask at all.
theorem mask_tells (dest method : String) :
    (maskRecoveryDestination dest method ≠ none ∧
      ∀ dest', view dest' method = view dest method →
        maskRecoveryDestination dest' method = maskRecoveryDestination dest method) ↔
      ¬(method = "email" ∧ headless dest = true) := by
  rw [← mask_none]
  refine ⟨And.left,fun made => ⟨made,fun dest' same => ?_⟩⟩
  rw [mask_view,mask_view,same]

-- A destination that can be stored and that panics.
theorem mask_panics : ¬∀ dest method, maskRecoveryDestination dest method ≠ none ∧
    ∀ dest', view dest' method = view dest method →
      maskRecoveryDestination dest' method = maskRecoveryDestination dest method := by
  intro all
  have panics : maskRecoveryDestination "@example.com" "email" = none := by decide +kernel
  exact (all _ _).1 panics

end ByosMail.RecoveryMasks
