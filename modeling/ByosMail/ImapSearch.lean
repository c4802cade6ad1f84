import ByosMail.GoRuntime
import ByosMail.ImapSession

-- searchBridgeMessages with its caches, beside the plain reading of the criteria.
namespace ByosMail.ImapSearch
open Bridge ImapSession GoRuntime

-- The lower-cased texts of one message; the two slices are made when they are first needed.
structure Caches where
  lowerSender : Text
  senderLowered : Bool
  lowerRecipients : Option (List Text)
  recipientsLowered : List Bool

def Caches.fresh : Caches := ⟨[],false,none,[]⟩

section
variable (rt : Runtime) (m : Message)

def lowerSender (c : Caches) : Caches :=
  if c.senderLowered then c else {c with lowerSender:=rt.toLower m.sender,senderLowered:=true}

-- The loop of checkRecipients from index j on.
def scanRecipients (term : Text) (lower : List Text) (lowered : List Bool) (j : Nat) : List Text → Bool × List Text × List Bool
  | [] => (false,lower,lowered)
  | recip :: rest =>
    let known := lowered.getD j false
    let lower := if known then lower else lower.set j (rt.toLower recip)
    let lowered := if known then lowered else lowered.set j true
    if contains term (lower.getD j []) then (true,lower,lowered) else scanRecipients term lower lowered (j + 1) rest

def makeCaches (c : Caches) : List Text × List Bool :=
  match c.lowerRecipients with
  | none => (List.replicate m.recipients.length [],List.replicate m.recipients.length false)
  | some lower => (lower,c.recipientsLowered)

def checkRecipients (term : Text) (c : Caches) : Bool × Caches :=
  let made := makeCaches m c
  let r := scanRecipients rt term made.1 made.2 0 m.recipients
  (r.1,{c with lowerRecipients:=some r.2.1,recipientsLowered:=r.2.2})

def unseen : Bool := rt.equalFold m.status (text "unseen") || rt.equalFold m.status (text "unread")

-- The loop over the tokens; false is the early break.
def matchFrom (tokens : List Text) (i : Nat) (c : Caches) : Bool :=
  if i < tokens.length then
    let token := rt.toUpper (tokens.getD i [])
    if token = text "ALL" then matchFrom tokens (i + 1) c
    else if token = text "UNSEEN" then
      if unseen rt m then matchFrom tokens (i + 1) c else false
    else if token = text "FROM" ∧ i + 1 < tokens.length then
      let c := lowerSender rt m c
      if contains (quoted rt (tokens.getD (i + 1) [])) c.lowerSender then matchFrom tokens (i + 2) c else false
    else if token = text "TO" ∧ i + 1 < tokens.length then
      let checked := checkRecipients rt m (quoted rt (tokens.getD (i + 1) [])) c
      if checked.1 then matchFrom tokens (i + 2) checked.2 else false
    else
      let term := quoted rt (tokens.getD i [])
      let c := lowerSender rt m c
      if contains term c.lowerSender then matchFrom tokens (i + 1) c
      else
        let checked := checkRecipients rt m term c
        if checked.1 then matchFrom tokens (i + 1) checked.2 else false
  else true
termination_by tokens.length - i

end

-- The plain reading.
inductive Criterion where
  | all
  | unseen
  | sender (token : Text)
  | recipient (token : Text)
  | anywhere (token : Text)

section
variable (rt : Runtime)

def alone (token : Text) : Criterion :=
  if rt.toUpper token = text "ALL" then .all
  else if rt.toUpper token = text "UNSEEN" then .unseen
  else .anywhere token

def criteriaOf : List Text → List Criterion
  | [] => []
  | [token] => [alone rt token]
  | token :: next :: rest =>
    if rt.toUpper token = text "FROM" then .sender next :: criteriaOf rest
    else if rt.toUpper token = text "TO" then .recipient next :: criteriaOf rest
    else alone rt token :: criteriaOf (next :: rest)

-- Case and surrounding quotes aside, the token is a part of the field.
def within (token field : Text) : Bool := contains (quoted rt token) (rt.toLower field)

def Criterion.holds (m : Message) : Criterion → Bool
  | .all => true
  | .unseen => ImapSearch.unseen rt m
  | .sender token => within rt token m.sender
  | .recipient token => m.recipients.any (within rt token)
  | .anywhere token => within rt token m.sender || m.recipients.any (within rt token)

def satisfying (messages : List Message) (criteria : Text) : List Message :=
  messages.filter fun m => (criteriaOf rt (rt.fields (rt.trimSpace criteria))).all fun criterion => criterion.holds rt m

def matched (messages : List Message) (criteria : Text) : List Message :=
  let criteriaClean := rt.trimSpace criteria
  let criteriaUpper := rt.toUpper criteriaClean
  if criteriaUpper = [] ∨ criteriaUpper = text "ALL" then messages
  else messages.filter fun m => matchFrom rt m (rt.fields criteriaClean) 0 .fresh

def searchBridgeMessages (s : Session) (tag criteria : Text) (input : Input) : Turn :=
  match input.messages with
  | none => reply s tag [] "NO mailbox metadata unavailable"
  | some messages => reply s tag [.search ((matched rt messages criteria).map (·.messageSeq))] "OK SEARCH completed"

end

structure Filled (rt : Runtime) (recipients : List Text) (lower : List Text) (lowered : List Bool) : Prop where
  room : lower.length = recipients.length
  flags : lowered.length = recipients.length
  kept : ∀ j, lowered.getD j false = true → lower.getD j [] = rt.toLower (recipients.getD j [])

structure Sound (rt : Runtime) (m : Message) (c : Caches) : Prop where
  sender : c.senderLowered = true → c.lowerSender = rt.toLower m.sender
  recipients : ∀ lower, c.lowerRecipients = some lower → Filled rt m.recipients lower c.recipientsLowered

section
variable {rt : Runtime} {m : Message}

theorem fresh_sound : Sound rt m .fresh := ⟨nofun,nofun⟩

theorem lowerSender_sound {c : Caches} (sound : Sound rt m c) :
    Sound rt m (lowerSender rt m c) ∧ (lowerSender rt m c).lowerSender = rt.toLower m.sender := by
  unfold lowerSender
  split
  · rename_i known
    exact ⟨sound,sound.sender known⟩
  · exact ⟨⟨fun _ => rfl,sound.recipients⟩,rfl⟩

theorem Filled.lowered_at {recipients lower : List Text} {lowered : List Bool} (filled : Filled rt recipients lower lowered)
    {j : Nat} (inside : j < recipients.length) :
    Filled rt recipients (lower.set j (rt.toLower (recipients.getD j []))) (lowered.set j true) := by
  refine ⟨by rw [List.length_set,filled.room],by rw [List.length_set,filled.flags],fun k known => ?_⟩
  by_cases same : j = k
  · subst same
    have room : j < lower.length := by rw [filled.room]; exact inside
    simp [List.getD_eq_getElem?_getD,room]
  · rw [List.getD_eq_getElem?_getD,List.getElem?_set_ne same,← List.getD_eq_getElem?_getD] at known ⊢
    exact filled.kept k known

-- The recipients before j are those already looked at.
theorem scanRecipients_sound (term : Text) (rest : List Text) : ∀ before lower lowered,
    Filled rt (before ++ rest) lower lowered →
    (scanRecipients rt term lower lowered before.length rest).1 = rest.any (fun recip => contains term (rt.toLower recip)) ∧
    Filled rt (before ++ rest) (scanRecipients rt term lower lowered before.length rest).2.1
      (scanRecipients rt term lower lowered before.length rest).2.2 := by
  induction rest with
  | nil => intro before lower lowered filled; exact ⟨rfl,filled⟩
  | cons recip rest ih =>
    intro before lower lowered filled
    have here : (before ++ recip :: rest).getD before.length [] = recip := by simp [List.getD_eq_getElem?_getD]
    have inside : before.length < (before ++ recip :: rest).length := by simp
    -- The entry is right after this step, whether it was known or not.
    obtain ⟨lower',lowered',steps,filled',entry⟩ : ∃ lower' lowered',
        (scanRecipients rt term lower lowered before.length (recip :: rest) =
          if contains term (lower'.getD before.length []) then (true,lower',lowered')
          else scanRecipients rt term lower' lowered' (before.length + 1) rest) ∧
        Filled rt (before ++ recip :: rest) lower' lowered' ∧ lower'.getD before.length [] = rt.toLower recip := by
      cases known : lowered.getD before.length false with
      | true =>
        have right := filled.kept _ known
        rw [here] at right
        exact ⟨lower,lowered,by rw [scanRecipients,known]; rfl,filled,right⟩
      | false =>
        have set := filled.lowered_at inside
        rw [here] at set
        have room : before.length < lower.length := by rw [filled.room]; exact inside
        exact ⟨_,_,by rw [scanRecipients,known]; rfl,set,by simp [List.getD_eq_getElem?_getD,room]⟩
    rw [steps,entry,List.any_cons]
    cases found : contains term (rt.toLower recip) with
    | true => exact ⟨rfl,filled'⟩
    | false =>
      have parts : before ++ recip :: rest = before ++ [recip] ++ rest := by simp
      rw [parts] at filled' ⊢
      have next := ih (before ++ [recip]) lower' lowered' filled'
      rw [List.length_append,List.length_singleton] at next
      exact next

theorem makeCaches_filled {c : Caches} (sound : Sound rt m c) : Filled rt m.recipients (makeCaches m c).1 (makeCaches m c).2 := by
  unfold makeCaches
  split
  · refine ⟨by simp,by simp,fun j known => ?_⟩
    rw [List.getD_eq_getElem?_getD,List.getElem?_replicate] at known
    split at known <;> simp at known
  · rename_i lower made
    exact sound.recipients lower made

theorem checkRecipients_sound {c : Caches} (term : Text) (sound : Sound rt m c) :
    (checkRecipients rt m term c).1 = m.recipients.any (fun recip => contains term (rt.toLower recip)) ∧
    Sound rt m (checkRecipients rt m term c).2 := by
  obtain ⟨found,filled⟩ := scanRecipients_sound term m.recipients [] _ _ (makeCaches_filled sound)
  refine ⟨found,sound.sender,fun lower made => ?_⟩
  cases made
  exact filled

theorem criteria_alone (rt : Runtime) (token : Text) (rest : List Text) (plain : rest ≠ [] → rt.toUpper token ≠ text "FROM" ∧ rt.toUpper token ≠ text "TO") :
    criteriaOf rt (token :: rest) = alone rt token :: criteriaOf rt rest := by
  cases rest with
  | nil => rfl
  | cons next more =>
    obtain ⟨notFrom,notTo⟩ := plain (List.cons_ne_nil _ _)
    rw [criteriaOf,if_neg notFrom,if_neg notTo]

theorem criteria_from (token next : Text) (more : List Text) (isFrom : rt.toUpper token = text "FROM") :
    criteriaOf rt (token :: next :: more) = .sender next :: criteriaOf rt more := by
  rw [criteriaOf,if_pos isFrom]

theorem criteria_to (token next : Text) (more : List Text) (isTo : rt.toUpper token = text "TO") :
    criteriaOf rt (token :: next :: more) = .recipient next :: criteriaOf rt more := by
  have notFrom : ¬text "TO" = text "FROM" := by decide
  rw [criteriaOf,isTo,if_neg notFrom,if_pos rfl]

theorem drop_getD (tokens : List Text) (i : Nat) (inside : i < tokens.length) :
    tokens.drop i = tokens.getD i [] :: tokens.drop (i + 1) := by
  rw [List.drop_eq_getElem_cons inside,List.getD_eq_getElem?_getD,List.getElem?_eq_getElem inside,Option.getD_some]

theorem bool_step (found : Bool) {next rest : Bool} (same : next = rest) : (if found then next else false) = (found && rest) := by
  cases found with
  | false => rfl
  | true => exact same

-- The tokens before i are done with; the measure is what is left of them.
theorem matchFrom_criteria (tokens : List Text) (n : Nat) : ∀ i c, tokens.length ≤ i + n → Sound rt m c →
    matchFrom rt m tokens i c = (criteriaOf rt (tokens.drop i)).all fun criterion => criterion.holds rt m := by
  induction n using Nat.strong_induction_on with
  | _ n ih =>
    intro i c bound sound
    unfold matchFrom
    by_cases inside : i < tokens.length
    · have smaller : ∀ k, 0 < k → ∀ c, Sound rt m c → matchFrom rt m tokens (i + k) c =
          (criteriaOf rt (tokens.drop (i + k))).all fun criterion => criterion.holds rt m :=
        fun k positive c sound => ih (n - k) (by omega) (i + k) c (by omega) sound
      have next : i + 1 < tokens.length → tokens.drop (i + 1) = tokens.getD (i + 1) [] :: tokens.drop (i + 2) := drop_getD tokens (i + 1)
      have last : ¬i + 1 < tokens.length → tokens.drop (i + 1) = [] := fun short => List.drop_eq_nil_of_le (by omega)
      rw [if_pos inside,drop_getD tokens i inside]
      generalize tokens.getD i [] = token
      by_cases isAll : rt.toUpper token = text "ALL"
      · have plain := criteria_alone rt token (tokens.drop (i + 1)) fun _ => by rw [isAll]; decide
        have kind : alone rt token = .all := if_pos isAll
        rw [plain,kind,List.all_cons]
        simp only [if_pos isAll]
        exact smaller 1 (by omega) c sound
      by_cases isUnseen : rt.toUpper token = text "UNSEEN"
      · have plain := criteria_alone rt token (tokens.drop (i + 1)) fun _ => by rw [isUnseen]; decide
        have kind : alone rt token = .unseen := (if_neg isAll).trans (if_pos isUnseen)
        rw [plain,kind,List.all_cons]
        simp only [if_neg isAll,if_pos isUnseen]
        exact bool_step _ (smaller 1 (by omega) c sound)
      by_cases isFrom : rt.toUpper token = text "FROM" ∧ i + 1 < tokens.length
      · obtain ⟨sound',lowered⟩ := lowerSender_sound sound
        simp only [if_neg isAll,if_neg isUnseen,if_pos isFrom]
        rw [next isFrom.2,criteria_from _ _ _ isFrom.1,List.all_cons,lowered]
        exact bool_step _ (smaller 2 (by omega) _ sound')
      by_cases isTo : rt.toUpper token = text "TO" ∧ i + 1 < tokens.length
      · obtain ⟨checked,sound'⟩ := checkRecipients_sound (quoted rt (tokens.getD (i + 1) [])) sound
        simp only [if_neg isAll,if_neg isUnseen,if_neg isFrom,if_pos isTo]
        rw [next isTo.2,criteria_to _ _ _ isTo.1,List.all_cons,checked]
        exact bool_step _ (smaller 2 (by omega) _ sound')
      · have plain := criteria_alone rt token (tokens.drop (i + 1)) fun some_ => by
          have more : i + 1 < tokens.length := by
            by_contra short
            exact some_ (last short)
          exact ⟨fun is => isFrom ⟨is,more⟩,fun is => isTo ⟨is,more⟩⟩
        have kind : alone rt token = .anywhere token := (if_neg isAll).trans (if_neg isUnseen)
        obtain ⟨sound',lowered⟩ := lowerSender_sound sound
        obtain ⟨checked,sound''⟩ := checkRecipients_sound (quoted rt token) sound'
        simp only [if_neg isAll,if_neg isUnseen,if_neg isFrom,if_neg isTo]
        rw [plain,kind,List.all_cons,lowered]
        have meaning : (Criterion.anywhere token).holds rt m =
            (contains (quoted rt token) (rt.toLower m.sender) || m.recipients.any fun recip => contains (quoted rt token) (rt.toLower recip)) := rfl
        rw [meaning]
        cases contains (quoted rt token) (rt.toLower m.sender) with
        | true =>
          rw [if_pos rfl,Bool.true_or,Bool.true_and]
          exact smaller 1 (by omega) _ sound'
        | false =>
          rw [if_neg (by decide),checked,Bool.false_or]
          exact bool_step _ (smaller 1 (by omega) _ sound'')
    · rw [if_neg inside,List.drop_eq_nil_of_le (by omega)]
      rfl

theorem alone_holds (token : Text) : (alone rt token).holds rt m =
    if rt.toUpper token = text "ALL" then true
    else if rt.toUpper token = text "UNSEEN" then unseen rt m
    else within rt token m.sender || m.recipients.any (within rt token) := by
  unfold alone
  split
  · rfl
  split
  · rfl
  · rfl

theorem matchesTokens_criteria (tokens : List Text) :
    matchesTokens rt m tokens = (criteriaOf rt tokens).all fun criterion => criterion.holds rt m := by
  induction size : tokens.length using Nat.strong_induction_on generalizing tokens with
  | _ n ih =>
    cases tokens with
    | nil => rfl
    | cons token tail =>
      cases tail with
      | nil =>
        rw [matchesTokens,criteriaOf,List.all_cons,alone_holds,List.all_nil,Bool.and_true]
        rfl
      | cons next rest =>
        have one := ih (next :: rest).length (by rw [← size]; exact Nat.lt_succ_self _) (next :: rest) rfl
        have two := ih rest.length (by rw [← size]; simp only [List.length_cons]; omega) rest rfl
        rw [matchesTokens]
        by_cases isAll : rt.toUpper token = text "ALL"
        · have plain := criteria_alone rt token (next :: rest) fun _ => by rw [isAll]; decide
          rw [if_pos isAll,plain,List.all_cons,alone_holds,if_pos isAll,one,Bool.true_and]
        by_cases isUnseen : rt.toUpper token = text "UNSEEN"
        · have plain := criteria_alone rt token (next :: rest) fun _ => by rw [isUnseen]; decide
          rw [if_neg isAll,if_pos isUnseen,plain,List.all_cons,alone_holds,if_neg isAll,if_pos isUnseen,one]
          rfl
        by_cases isFrom : rt.toUpper token = text "FROM"
        · rw [if_neg isAll,if_neg isUnseen,if_pos isFrom,criteria_from _ _ _ isFrom,List.all_cons,two]
          rfl
        by_cases isTo : rt.toUpper token = text "TO"
        · rw [if_neg isAll,if_neg isUnseen,if_neg isFrom,if_pos isTo,criteria_to _ _ _ isTo,List.all_cons,two]
          rfl
        · have plain := criteria_alone rt token (next :: rest) fun _ => ⟨isFrom,isTo⟩
          rw [if_neg isAll,if_neg isUnseen,if_neg isFrom,if_neg isTo,plain,List.all_cons,alone_holds,if_neg isAll,
            if_neg isUnseen,one]
          rfl

theorem session_search (s : Session) (tag criteria : Text) (input : Input) :
    ImapSession.searchBridgeMessages rt s tag criteria input = searchBridgeMessages rt s tag criteria input := by
  have same : ∀ m tokens, matchesTokens rt m tokens = matchFrom rt m tokens 0 .fresh := fun m tokens =>
    (matchesTokens_criteria tokens).trans (matchFrom_criteria tokens tokens.length 0 .fresh (by omega) fresh_sound).symm
  unfold ImapSession.searchBridgeMessages
  simp only [same]
  rfl

end

section
variable (unicode : Unicode)

-- The shortcut leaves out nothing the tokens would say.
theorem shortcut_fields {clean : Text} (short : (go unicode).toUpper clean = [] ∨ (go unicode).toUpper clean = text "ALL") :
    criteriaOf (go unicode) ((go unicode).fields clean) = [] ∨ criteriaOf (go unicode) ((go unicode).fields clean) = [.all] := by
  rcases short with empty | isAll
  · have none : clean = [] := mapRunes_nil empty
    rw [none]
    exact .inl rfl
  · have present : clean ≠ [] := by
      intro none
      rw [none] at isAll
      have blank : ([] : Text) = text "ALL" := isAll
      exact absurd blank (by decide)
    have solid := upper_solid unicode isAll (each_char (by decide))
    have whole : (go unicode).fields clean = [clean] := fields_solid present solid
    have kind : alone (go unicode) clean = .all := if_pos isAll
    rw [whole,criteriaOf,kind]
    exact .inr rfl

theorem matched_satisfying (messages : List Message) (criteria : Text) :
    matched (go unicode) messages criteria = satisfying (go unicode) messages criteria := by
  unfold matched satisfying
  by_cases short : (go unicode).toUpper ((go unicode).trimSpace criteria) = [] ∨
      (go unicode).toUpper ((go unicode).trimSpace criteria) = text "ALL"
  · simp only [if_pos short]
    rcases shortcut_fields unicode short with none | all
    · rw [none]; simp
    · rw [all]; simp [Criterion.holds]
  · simp only [if_neg short]
    refine List.filter_congr fun m _ => ?_
    exact matchFrom_criteria _ _ 0 .fresh (Nat.le_of_eq (Nat.zero_add _).symm) fresh_sound

-- The reply lists, in the order of the messages, those that satisfy every criterion.
theorem search_plain (s : Session) (tag criteria : Text) (input : Input) :
    searchBridgeMessages (go unicode) s tag criteria input =
      match input.messages with
      | none => reply s tag [] "NO mailbox metadata unavailable"
      | some messages =>
        reply s tag [.search ((satisfying (go unicode) messages criteria).map (·.messageSeq))] "OK SEARCH completed" := by
  unfold searchBridgeMessages
  simp only [matched_satisfying]

end

def sampleMessage : Message := ⟨7,text "id",text "Bob@x.org",[text "Ann@y.org",text "eve@z.org"],[],[],text "Unread"⟩

example : [text "all",text "from BOB to \"ANN@\" unseen",text "from eve",text "eve to",text "eve from"].map
    (fun criteria => (satisfying (go asciiTables) [sampleMessage] criteria).length) = [1,1,0,0,0] := by decide

end ByosMail.ImapSearch
