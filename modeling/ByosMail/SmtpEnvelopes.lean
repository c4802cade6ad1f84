import ByosMail.SmtpSession

-- The envelope of a mail transaction against what the bridge submits for it: the session
-- keeps one sender and one recipient, whatever transaction gave them.
namespace ByosMail.SmtpSession
open Bridge Machine

-- The addresses of the MAIL and RCPT commands answered 250 since the transaction began; a
-- command without an argument gives none.
structure Envelope where
  sender : Option (Option Text)
  recipients : List (Option Text)
  deriving DecidableEq

def Envelope.empty : Envelope := ⟨none,[]⟩

section
variable (rt : Runtime) (cfg : BridgeConfig)

def address (e : Input) : Option Text := (argument e).map (cleanAddress rt)

-- RSET, a new MAIL and the end of a message begin the envelope anew.
def Envelope.take (env : Envelope) (p : Session × Input) : Envelope :=
  if p.1.mode = .data then if ends p.2 then .empty else env
  else if p.1.mode = .command ∧ Writes rt cfg p.1 p.2 250 then
    if verb rt p.2 = text "RSET" then .empty
    else if verb rt p.2 = text "MAIL" then ⟨some (address rt p.2),[]⟩
    else if verb rt p.2 = text "RCPT" then {env with recipients:=env.recipients ++ [address rt p.2]}
    else env
  else env

def envelope (trace : List (Session × Input)) : Envelope := trace.foldl (Envelope.take rt cfg) .empty

-- The submission has the recipients of its own transaction, all of them and no other, and
-- the sender.
def Honoured (trace : List (Session × Input)) (s : Session) (e : Input) : Prop :=
  ∀ sub ∈ submitted rt cfg s e,
    let recipient := (submitBridgeOutbound rt cfg sub).recipient
    (∀ given ∈ (envelope rt cfg trace).recipients, given = some recipient) ∧
      some recipient ∈ (envelope rt cfg trace).recipients ∧ (envelope rt cfg trace).sender = some (some sub.from_)

-- Where a message ends, its transaction has a sender, and recipients that are all the same.
def Single (trace : List (Session × Input)) (s : Session) (e : Input) : Prop :=
  s.mode = .data → ends e = true →
    ((envelope rt cfg trace).sender.bind id).isSome = true ∧
      ∃ r ∈ (envelope rt cfg trace).recipients.head?.bind id, cleanAddress rt r = r ∧
        ∀ given ∈ (envelope rt cfg trace).recipients, given = some r

instance : Decidable (Honoured rt cfg trace s e) := inferInstanceAs (Decidable (∀ sub ∈ submitted rt cfg s e, _ ∧ _ ∧ _))

instance : Decidable (Single rt cfg trace s e) := inferInstanceAs (Decidable (_ → _ → _ ∧ ∃ r ∈ _, _))

-- What the session still knows of the envelope: the sender, and the last recipient given.
structure Carries (env : Envelope) (s : Session) : Prop where
  sender : ∀ a, env.sender = some (some a) → s.from_ = a
  recipient : ∀ r, (env.recipients.filterMap id).getLast? = some r → s.to_ = r

end

section
variable {rt : Runtime} {cfg : BridgeConfig} {s t : Session} {e : Input} {env : Envelope}

theorem Carries.empty (s : Session) : Carries .empty s where
  sender _ given := by cases given
  recipient _ given := by cases given

theorem Carries.same (carries : Carries env s) (from_ : t.from_ = s.from_) (to_ : t.to_ = s.to_) : Carries env t :=
  ⟨fun a given => from_.trans (carries.sender a given),fun r given => to_.trans (carries.recipient r given)⟩

theorem take_aside (mode : s.mode = .command)
    (aside : Writes rt cfg s e 250 → verb rt e ∉ [text "RSET",text "MAIL",text "RCPT"]) : env.take rt cfg (s,e) = env := by
  rw [Envelope.take,if_neg (by simp [mode])]
  split
  · rename_i answered
    have other := aside answered.2
    simp only [List.mem_cons,List.not_mem_nil,or_false,not_or] at other
    rw [if_neg other.1,if_neg other.2.1,if_neg other.2.2]
  · rfl

theorem take_answered (mode : s.mode = .command) (answered : Writes rt cfg s e 250) : env.take rt cfg (s,e) =
    if verb rt e = text "RSET" then .empty
    else if verb rt e = text "MAIL" then ⟨some (address rt e),[]⟩
    else if verb rt e = text "RCPT" then {env with recipients:=env.recipients ++ [address rt e]}
    else env := by
  rw [Envelope.take,if_neg (by simp [mode]),if_pos ⟨mode,answered⟩]

theorem Carries.commanded (carries : Carries env s) (mode : s.mode = .command) :
    Carries (env.take rt cfg (s,e)) (command rt s e).next := by
  have effect : Effect rt s e (command rt s e) := command_effect mode
  have written : ∀ code, Writes rt cfg s e code ↔ ∃ r ∈ (command rt s e).replies, r.code = code :=
    fun code => writes_turn (command_turn mode)
  generalize command rt s e = turn at effect written
  cases effect with
  | other reply isOther =>
    rw [take_aside mode fun _ => by simp only [List.mem_cons,not_or] at isOther ⊢; tauto]
    exact carries.same rfl rfl
  | auth isAuth _ whole =>
    rw [take_aside mode fun _ => by rw [isAuth]; decide]
    rw [whole]
    split
    · exact carries.same rfl rfl
    · unfold authenticateSMTP
      split <;> exact carries.same rfl rfl
  | mail isMail allowed =>
    rw [take_answered mode ((written 250).mpr ⟨_,List.mem_cons_self,rfl⟩),if_neg (by rw [isMail]; decide),if_pos isMail]
    refine ⟨?_,fun _ given => by cases given⟩
    intro a given
    show ((argument e).map (cleanAddress rt)).getD s.from_ = a
    rw [show (argument e).map (cleanAddress rt) = some a from Option.some.inj given]
    rfl
  | rcpt isRcpt allowed =>
    rw [take_answered mode ((written 250).mpr ⟨_,List.mem_cons_self,rfl⟩),if_neg (by rw [isRcpt]; decide),
      if_neg (by rw [isRcpt]; decide),if_pos isRcpt]
    refine ⟨carries.sender,?_⟩
    intro r given
    show (address rt e).getD s.to_ = r
    rw [List.filterMap_append] at given
    cases named : address rt e with
    | some a =>
      rw [named] at given
      simpa using given
    | none =>
      rw [named] at given
      exact carries.recipient r (by simpa using given)
  | unready isData reply refusal =>
    rw [take_aside mode fun answered => by
      obtain ⟨r,member,code⟩ := (written 250).mp answered
      cases List.mem_singleton.mp member
      simp [code] at refusal]
    exact carries
  | data isData =>
    rw [take_aside mode fun _ => by rw [isData]; decide]
    exact carries.same rfl rfl
  | rset isRset =>
    rw [take_answered mode ((written 250).mpr ⟨_,List.mem_cons_self,rfl⟩),if_pos isRset]
    exact .empty _

theorem Carries.advance (carries : Carries env s) (taken : advance rt cfg s e = some t) : Carries (env.take rt cfg (s,e)) t := by
  obtain ⟨turn,served,rfl⟩ := advance_turn taken
  rcases served_cases served with ⟨mode,rfl,-⟩ | ⟨mode,rfl⟩ | ⟨mode,rfl⟩
  · exact carries.commanded mode
  · rw [Envelope.take,if_neg (by simp [mode]),if_neg (by simp [mode]),readCredentials]
    split <;> exact carries.same rfl rfl
  · rw [Envelope.take,if_pos mode,readData]
    split
    · exact .empty _
    · exact carries.same rfl rfl

theorem recipient_carried (carries : Carries env s) (member : some r ∈ env.recipients)
    (same : ∀ given ∈ env.recipients, given = some r) : s.to_ = r := by
  apply carries.recipient
  have whole : env.recipients = List.replicate env.recipients.length (some r) := List.eq_replicate_of_mem same
  have length : env.recipients.length ≠ 0 := fun none => List.ne_nil_of_mem member (List.length_eq_zero_iff.mp none)
  rw [whole,List.filterMap_replicate_of_some (show id (some r) = some r from rfl),List.getLast?_replicate,if_neg length]

theorem honoured_iff (carries : Carries (envelope rt cfg trace) s) : Honoured rt cfg trace s e ↔ Single rt cfg trace s e := by
  constructor
  · intro honoured mode last
    have made : submitted rt cfg s e = some ⟨s.from_,s.to_,s.dataBuffer⟩ := by
      rw [submitted,data_turn mode,Option.bind_some,readData,if_pos last]
    obtain ⟨all,own,sender⟩ := honoured _ made
    have kept : s.to_ = cleanAddress rt s.to_ := recipient_carried carries own all
    refine ⟨by rw [sender]; rfl,s.to_,?_,kept.symm,?_⟩
    · obtain ⟨first,more,list⟩ := List.exists_cons_of_ne_nil (List.ne_nil_of_mem own)
      have given := all first (by rw [list]; exact List.mem_cons_self)
      rw [list,List.head?_cons,given]
      exact congrArg some kept.symm
    · intro given member
      rw [kept]
      exact all given member
  · intro single sub made
    obtain ⟨mode,last,rfl⟩ := submitted_cases sub made
    obtain ⟨sender,r,first,clean,all⟩ := single mode last
    obtain ⟨given,head,named⟩ := Option.bind_eq_some_iff.mp first
    obtain rfl : given = some r := named
    have own : some r ∈ (envelope rt cfg trace).recipients := List.mem_of_head? head
    have kept : s.to_ = r := recipient_carried carries own all
    have recipient : (submitBridgeOutbound rt cfg ⟨s.from_,s.to_,s.dataBuffer⟩).recipient = r := by
      rw [submitBridgeOutbound,kept,clean]
    dsimp only
    rw [recipient]
    refine ⟨all,own,?_⟩
    obtain ⟨a,gives⟩ := Option.isSome_iff_exists.mp sender
    obtain ⟨given,mailed,named⟩ := Option.bind_eq_some_iff.mp gives
    obtain rfl : given = some a := named
    rw [mailed,carries.sender a mailed]

end

-- A session honours its transactions exactly when each of them that ends in a message names
-- one sender and one recipient.
theorem envelopes_exactly (path : Runs (advance rt cfg) start trace after) :
    Along (Honoured rt cfg) trace ↔ Along (Single rt cfg) trace := by
  have keeps : ∀ trace (s : Session) e t, Carries (envelope rt cfg trace) s → advance rt cfg s e = some t →
      Carries (envelope rt cfg (trace ++ [(s,e)])) t := by
    intro trace s e t carries taken
    rw [envelope,List.foldl_append]
    exact carries.advance taken
  exact path.along_congr keeps (fun _ _ _ _ carries _ => honoured_iff carries) (.empty start)

def signedIn : List Input := [sends "AUTH PLAIN" true,sends "AHUAdG9r" true]

theorem envelopes_exactly_twice : ∃ trace t, Runs (advance ascii thunderbird) start trace t ∧
    Along (Honoured ascii thunderbird) trace ∧
    (trace.filterMap fun p => (submitted ascii thunderbird p.1 p.2).map (·.to_)) = [text "b@x.io",text "c@x.io"] := by
  obtain ⟨trace,t,path,single,sent⟩ : ∃ trace t, Runs (advance ascii thunderbird) start trace t ∧
      Along (Single ascii thunderbird) trace ∧
      (trace.filterMap fun p => (submitted ascii thunderbird p.1 p.2).map (·.to_)) = [text "b@x.io",text "c@x.io"] :=
    follow_ends (signedIn ++ [sends "MAIL FROM:<a@x.io>" true,sends "RCPT TO:<b@x.io>" true,sends "DATA" true,
      sends "hello" true,sends "." true,sends "MAIL FROM:<a@x.io>" true,sends "RCPT TO:<c@x.io>" true,sends "DATA" true,
      sends "." true]) (by decide +kernel)
  exact ⟨trace,t,path,(envelopes_exactly path).mpr single,sent⟩

-- Of two recipients the second gets the message.
theorem recipient_dropped : ∃ trace t, Runs (advance ascii thunderbird) start trace t ∧ ¬Along (Honoured ascii thunderbird) trace :=
  follow_ends (signedIn ++ [sends "MAIL FROM:<a@x.io>" true,sends "RCPT TO:<b@x.io>" true,sends "RCPT TO:<c@x.io>" true,
    sends "DATA" true,sends "." true]) (by decide +kernel)

end ByosMail.SmtpSession
