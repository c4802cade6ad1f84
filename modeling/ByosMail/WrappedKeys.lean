import ByosMail.KeyVersions

-- mailbox_sk_wrapped: the envelope unwrap_mailbox_key parses, and what its four writers
-- store in the column.
namespace ByosMail.MailboxKeys
open GoText Machine
open Utf8 (utf8)

-- version(1) || nonce(12) || ciphertext and tag of 32 bytes.
def Enveloped (bytes : List UInt8) : Bool := bytes.length = 61 ∧ bytes.head? = some 1

def Mailbox.enveloped (m : Mailbox) : Bool := m.mailboxSkWrapped.all Enveloped

-- The bytes a request has for the column.
def Event.skWrapped : Event → Option (List UInt8)
  | .create _ _ body _ _ => hexBytes 61 (trimSpace body.mailboxSkWrapped)
  | .claim body => some body.skWrapped
  | .reset _ _ newWrappedSkUser _ =>
    if trimSpace newWrappedSkUser = "" then none else some (utf8 (trimSpace newWrappedSkUser))
  | .reactivate _ _ wrappedSkUser _ => some (utf8 (trimSpace wrappedSkUser))
  | _ => none

def Event.seals (s : State) (e : Event) : Bool :=
  !accepts s e || (e.rekeys && !s.mailboxes.any (e.hits s)) || e.skWrapped.all Enveloped

theorem rekey_enveloped {e : Event} (kind : e.rekeys = true) (envelope : e.skWrapped.all Enveloped = true)
    (valid : m.enveloped = true) : (e.rekey m).enveloped = true := by
  cases e with
  | reset userId pk wrapped suppliedFor =>
    simp only [Event.skWrapped] at envelope
    simp only [Event.rekey,Mailbox.resetKeys,ne_eq]
    split at envelope
    · rename_i blank
      simp only [blank,not_true_eq_false,if_false]
      exact valid
    · rename_i present
      simp only [present,not_false_eq_true,if_true]
      repeat' split
      all_goals exact envelope
  | reactivate caller mailboxId wrapped pk =>
    simp only [Event.rekey,Mailbox.reactivateKeys]
    repeat' split
    all_goals exact envelope
  | _ => simp [Event.rekeys] at kind

-- A column of every row, through one UPDATE.
theorem all_update {rows : List Mailbox} {hits : Mailbox → Prop} [DecidablePred hits] {assign : Mailbox → Mailbox}
    (valid : ∀ m ∈ rows, m.enveloped = true) (assigned : ∀ m ∈ rows, hits m → (assign m).enveloped = true) :
    ∀ m ∈ Table.update hits assign rows, m.enveloped = true := by
  intro m member
  obtain ⟨old,present,rfl⟩ := Table.mem_update.mp member
  split
  · exact assigned old present ‹_›
  · exact valid old present

theorem effect_enveloped (effect : Effect s e t) (envelope : (e.rekeys && !s.mailboxes.any (e.hits s)) = true ∨
    e.skWrapped.all Enveloped = true) (valid : ∀ m ∈ s.mailboxes, m.enveloped = true) :
    ∀ m ∈ t.mailboxes, m.enveloped = true := by
  have added : ∀ {new : Mailbox}, new.enveloped = true → ∀ m ∈ s.mailboxes ++ [new], m.enveloped = true := by
    intro new good m member
    rcases List.mem_append.mp member with old | last
    · exact valid m old
    · cases List.mem_singleton.mp last
      exact good
  cases effect with
  | create member root sk pk =>
    apply added
    have sealed := envelope.resolve_left (by simp [Event.rekeys])
    simp only [Event.skWrapped,sk] at sealed
    exact sealed
  | invite => exact added rfl
  | claim =>
    have sealed := envelope.resolve_left (by simp [Event.rekeys])
    exact all_update valid fun m member hit => sealed
  | stay | route | staff | tick => exact valid
  | rewrap | sever | rotate | delete => exact all_update valid fun m member hit => valid m member
  | point =>
    have remoded : ∀ mailboxId, ∀ m ∈ remode mailboxId .orgManaged s.mailboxes, m.enveloped = true :=
      fun mailboxId => all_update valid fun m member hit => valid m member
    exact all_update (remoded _) fun m member hit => remoded _ m member
  | rekey kind =>
    refine all_update valid fun m member hit => ?_
    rcases envelope with missed | sealed
    · have nobody : s.mailboxes.any (e.hits s) = false := by simpa [kind] using missed
      exact absurd hit (by simpa using List.any_eq_false.mp nobody m member)
    · exact rekey_enveloped kind sealed (valid m member)

theorem advance_enveloped (s : State) (e : Event) (t : State) (valid : ∀ m ∈ s.mailboxes, m.enveloped = true)
    (seals : e.seals s = true) (step : advance s e = some t) : ∀ m ∈ t.mailboxes, m.enveloped = true := by
  rcases advance_effect step with ⟨_,rfl⟩ | ⟨accepted,effect⟩
  · exact valid
  · refine effect_enveloped effect ?_ valid
    simpa [Event.seals,accepted] using seals

theorem wrapped_keys_enveloped (run : Runs advance (start now) trace t)
    (sealed : Throughout (fun s e => e.seals s = true) trace) : ∀ m ∈ t.mailboxes, m.enveloped = true := by
  have origin : ∀ m ∈ (start now).mailboxes, m.enveloped = true := by simp [start]
  have kept := run.invariant advance_enveloped origin sealed
  exact kept

def claimed (wrappedSkUser : String) : List Event :=
  [.staff [⟨1,1,"owner",true⟩],.invite 1 1 ⟨"private","t","","",""⟩ (.ok ()) 2 10,.claim ⟨"t",wrappedSkUser,"00"⟩]

theorem wrapped_keys_enveloped_of_hex : ∃ trace t, Runs advance (start 0) trace t ∧
    t.mailboxes.map (·.mailboxSkWrapped.isSome) = [true] ∧ ∀ m ∈ t.mailboxes, m.enveloped = true := by
  have reached : ∃ trace t, Runs advance (start 0) trace t ∧
      (Throughout (fun s e => Event.seals s e = true) trace ∧ t.mailboxes.map (·.mailboxSkWrapped.isSome) = [true]) :=
    follow_ends (claimed skText) (by decide +kernel)
  obtain ⟨trace,t,run,sealed,stored⟩ := reached
  exact ⟨trace,t,run,stored,wrapped_keys_enveloped run sealed⟩

-- A wrap that is not hexadecimal is stored as its text.
theorem claim_stores_text : ∃ trace t, Runs advance (start 0) trace t ∧ ¬∀ m ∈ t.mailboxes, m.enveloped = true :=
  follow_ends (claimed "user-wrap") (by decide +kernel)

end ByosMail.MailboxKeys
