import ByosMail.AuthAnswers
import ByosMail.AuthSessions

-- When the two recovery endpoints give away whether an account exists and how it can be
-- recovered.
namespace ByosMail.AuthAnswers
open GoText Auth

-- What a requester can compare: everything but the values of random tokens and times.
def Value.visible : Value → Value
  | .random _ => .random ""
  | .time _ => .time 0
  | value => value

def visibleFields (fields : List (String × Value)) : List (String × Value) := fields.map fun field => (field.1,field.2.visible)

def Response.visible : Response → Response
  | .json status fields => .json status (visibleFields fields)
  | response => response

@[simp]
theorem visible_random (text : String) : (Value.random text).visible = .random "" := rfl

@[simp]
theorem visible_time (seconds : Nat) : (Value.time seconds).visible = .time 0 := rfl

@[simp]
theorem visible_text (text : List Char) : (Value.text text).visible = .text text := rfl

@[simp]
theorem visible_plain (text : String) : (plain text).visible = plain text := rfl

@[simp]
theorem visible_options (values : List (String × List Char)) : (Value.options values).visible = .options values := rfl

@[simp]
theorem visibleFields_nil : visibleFields [] = [] := rfl

@[simp]
theorem visibleFields_cons (name : String) (value : Value) (rest : List (String × Value)) :
    visibleFields ((name,value) :: rest) = (name,value.visible) :: visibleFields rest := rfl

@[simp]
theorem visibleFields_append (front back : List (String × Value)) :
    visibleFields (front ++ back) = visibleFields front ++ visibleFields back := List.map_append

@[simp]
theorem plain_inj (one two : String) : plain one = plain two ↔ one = two := by
  simp [plain,String.toList_inj]

section
variable (rt : Runtime) (secrets : Secrets) (n : Nat) (draw : Draw) (one two : Database)

-- The same thing is said about the mailbox of two accounts.
def SameMailbox (user user' : User) : Prop :=
  mailboxText (one.recoveryMailbox draw user.id) = mailboxText (two.recoveryMailbox draw user'.id) ∧
  keyText secrets.wrappedSkUser (one.recoveryMailbox draw user.id) = keyText secrets.wrappedSkUser (two.recoveryMailbox draw user'.id)

def destinationShown (email method : String) (user : User) : Option (List Char) :=
  (maskRecoveryDestination (recoveryDestination user email method) method).map shown

-- Two accounts that a recovery request cannot tell apart: both or neither have the method,
-- and where a challenge is made its destination looks the same.
def Alike (email method : String) (user user' : User) : Prop :=
  if method = "totp" then
    given user.totpSecret = given user'.totpSecret ∧
      (given user.totpSecret = true → draw.writes = true → SameMailbox secrets draw one two user user')
  else
    (method = "phone" → given user.recoveryPhone = given user'.recoveryPhone) ∧
      ((method = "phone" → given user.recoveryPhone = true) → draw.drawsCode = true → draw.writes = true →
        destinationShown email method user = destinationShown email method user' ∧
          (destinationShown email method user ≠ none → SameMailbox secrets draw one two user user'))

theorem visible_mailbox (mailbox mailbox' : Option MailboxRow) :
    visibleFields (mailboxFields secrets mailbox) = visibleFields (mailboxFields secrets mailbox') ↔
      mailboxText mailbox = mailboxText mailbox' ∧ keyText secrets.wrappedSkUser mailbox = keyText secrets.wrappedSkUser mailbox' := by
  simp [mailboxFields]

theorem codeAnswer_alike (email method : String) (user user' : User) :
    (codeAnswer secrets n one draw email method user).visible = (codeAnswer secrets n two draw email method user').visible ↔
      destinationShown email method user = destinationShown email method user' ∧
        (destinationShown email method user ≠ none → SameMailbox secrets draw one two user user') := by
  unfold codeAnswer destinationShown
  cases maskRecoveryDestination (recoveryDestination user email method) method with
  | none => cases maskRecoveryDestination (recoveryDestination user' email method) method <;> simp [Response.visible]
  | some text =>
    cases maskRecoveryDestination (recoveryDestination user' email method) method with
    | none => simp [Response.visible]
    | some text' => simp [Response.visible,SameMailbox,visible_mailbox,expiry]

theorem codeAnswer_not_error (db : Database) (email method : String) (user : User) (status : Nat) (message : String) :
    (codeAnswer secrets n db draw email method user).visible ≠ .error status message := by
  unfold codeAnswer
  split <;> simp [Response.visible]

-- The branches behind the check of the phone number.
def codeBranch (db : Database) (email method : String) (user : User) : Response :=
  if draw.drawsCode = false then .error 500 "failed to generate verification code"
  else if draw.writes = false then .error 500 "failed to create recovery challenge"
  else codeAnswer secrets n db draw email method user

theorem codeBranch_alike (email method : String) (user user' : User) :
    (codeBranch secrets n draw one email method user).visible = (codeBranch secrets n draw two email method user').visible ↔
      (draw.drawsCode = true → draw.writes = true →
        destinationShown email method user = destinationShown email method user' ∧
          (destinationShown email method user ≠ none → SameMailbox secrets draw one two user user')) := by
  unfold codeBranch
  cases drew : draw.drawsCode with
  | false => simp [Response.visible]
  | true =>
    cases wrote : draw.writes with
    | false => simp [Response.visible]
    | true => simpa using codeAnswer_alike secrets n draw one two email method user user'

theorem codeBranch_not_refused (db : Database) (email method : String) (user : User) (message : String) :
    (codeBranch secrets n draw db email method user).visible ≠ .error 400 message := by
  unfold codeBranch
  split
  · simp [Response.visible]
  · split
    · simp [Response.visible]
    · exact codeAnswer_not_error secrets n draw db email method user 400 message

theorem recoveryAnswer_code (db : Database) (email : String) (user : User) (other : method ≠ "totp") :
    (recoveryAnswer secrets n db draw email method user).2 =
      if method = "phone" ∧ given user.recoveryPhone = false then
        .error 400 "recovery phone is not configured for this account"
      else codeBranch secrets n draw db email method user := by
  unfold recoveryAnswer codeBranch
  simp only [if_neg other,apply_ite Prod.snd]

theorem recoveryAnswer_alike (email method : String) (user user' : User) :
    (recoveryAnswer secrets n one draw email method user).2.visible = (recoveryAnswer secrets n two draw email method user').2.visible ↔
      Alike secrets draw one two email method user user' := by
  unfold Alike
  split
  · rename_i totp
    unfold recoveryAnswer
    cases mine : given user.totpSecret <;> cases theirs : given user'.totpSecret <;> cases wrote : draw.writes <;>
      simp [totp,Response.visible,SameMailbox,visible_mailbox,expiry]
  · rename_i other
    rw [recoveryAnswer_code secrets n draw one email user other,recoveryAnswer_code secrets n draw two email user' other]
    by_cases phone : method = "phone"
    · cases mine : given user.recoveryPhone with
      | false =>
        cases theirs : given user'.recoveryPhone with
        | false => simp [phone,Response.visible]
        | true =>
          simp only [phone,true_and,if_true,Bool.true_eq_false,if_false,Bool.false_eq_true,forall_const,false_and,iff_false]
          exact (codeBranch_not_refused secrets n draw two email "phone" user' _).symm
      | true =>
        cases theirs : given user'.recoveryPhone with
        | false =>
          simp only [phone,true_and,if_true,Bool.true_eq_false,if_false,forall_const,false_and,iff_false]
          exact codeBranch_not_refused secrets n draw one email "phone" user _
        | true => simpa [phone] using codeBranch_alike secrets n draw one two email "phone" user user'
    · simpa [phone] using codeBranch_alike secrets n draw one two email method user user'

theorem unknown_visible (method : String) (valid : method = "email" ∨ method = "phone" ∨ method = "totp") :
    ∃ fields, fields.length = 4 ∧ ∀ db, (unknownAnswer db draw method).visible = .json 200 fields := by
  have masks : (maskRecoveryDestination "user@example.com" method).isSome := by
    rcases valid with rfl | rfl | rfl <;> decide +kernel
  obtain ⟨text,found⟩ := Option.isSome_iff_exists.mp masks
  refine ⟨[("challenge_token",.random ""),("method",plain method),("destination_masked",.text (shown text)),("expires_at",.time 0)],
    rfl,?_⟩
  intro db
  simp [unknownAnswer,found,Response.visible,expiry]

theorem recoveryAnswer_longer (db : Database) (email method : String) (user : User)
    (same : (recoveryAnswer secrets n db draw email method user).2.visible = .json 200 fields) : 4 < fields.length := by
  by_cases totp : method = "totp"
  · unfold recoveryAnswer at same
    simp only [if_pos totp] at same
    split_ifs at same
    · cases same
    · cases same
    · obtain ⟨-,rfl⟩ := Response.json.inj same
      simp [expiry,mailboxFields]
  · rw [recoveryAnswer_code secrets n draw db email user totp] at same
    unfold codeBranch codeAnswer at same
    split_ifs at same
    · cases same
    · cases same
    · cases same
    · split at same
      · cases same
      · obtain ⟨-,rfl⟩ := Response.json.inj same
        simp [expiry,mailboxFields]

theorem recoveryInput_method (accepted : recoveryInput rt draw post body = .ok (email,method)) :
    method = "email" ∨ method = "phone" ∨ method = "totp" := by
  unfold recoveryInput at accepted
  split at accepted
  · cases accepted
  · split at accepted
    · cases accepted
    · rename_i body
      dsimp only at accepted
      generalize (if rt.toLower (trimSpace body.method) = "" then "email" else rt.toLower (trimSpace body.method)) = chosen at accepted
      split_ifs at accepted with noEmail unsupported off
      obtain ⟨-,rfl⟩ := Prod.mk.inj (Except.ok.inj accepted)
      by_contra other
      simp only [not_or] at other
      exact unsupported other

-- The accounts of the two databases, if the request gets as far as looking for them, are
-- both there and alike or both missing.
def RecoversAlike (post : Bool) (body : Option RecoveryBody) : Prop :=
  match recoveryInput rt draw post body with
  | .error _ => True
  | .ok (email,method) =>
    match one.account draw email,two.account draw email with
    | none,none => True
    | some user,some user' => Alike secrets draw one two email method user user'
    | _,_ => False

theorem recoveryFlowRequest_alike (post : Bool) (body : Option RecoveryBody) :
    (recoveryFlowRequestHandler rt secrets n one draw post body).2.visible =
        (recoveryFlowRequestHandler rt secrets n two draw post body).2.visible ↔
      RecoversAlike rt secrets draw one two post body := by
  unfold recoveryFlowRequestHandler RecoversAlike
  cases input : recoveryInput rt draw post body with
  | error response => simp
  | ok pair =>
    obtain ⟨email,method⟩ := pair
    obtain ⟨fields,short,unknown⟩ := unknown_visible draw method (recoveryInput_method rt draw input)
    have longer : ∀ db user, (recoveryAnswer secrets n db draw email method user).2.visible ≠ .json 200 fields := by
      intro db user same
      have more := recoveryAnswer_longer secrets n draw db email method user same
      omega
    dsimp only
    cases mine : one.account draw email with
    | none =>
      cases theirs : two.account draw email with
      | none => simp [unknown]
      | some user' =>
        simp only [unknown,iff_false]
        exact (longer two user').symm
    | some user =>
      cases theirs : two.account draw email with
      | none =>
        simp only [unknown,iff_false]
        exact longer one user
      | some user' => exact recoveryAnswer_alike secrets n draw one two email method user user'

-- What the options say of an account.
def emailShown (user : Option User) (email : String) : Option (List Char) :=
  let chosen := match user with
    | none => email
    | some user => if given user.recoveryEmail then user.recoveryEmail.getD "" else email
  (maskRecoveryDestination chosen "email").map shown

def phoneShown : Option User → Option (List Char)
  | none => none
  | some user => if given user.recoveryPhone then (maskRecoveryDestination (user.recoveryPhone.getD "") "phone").map shown else none

def hasTotp (user : Option User) : Bool := user.any fun u => given u.totpSecret

theorem mask_phone (dest : String) : ∃ text, maskRecoveryDestination dest "phone" = some text := by
  rw [← Option.isSome_iff_exists,maskRecoveryDestination]
  dsimp only
  split
  · rfl
  · rw [if_neg (by decide),if_pos rfl]
    split <;> rfl

theorem methodOptions_shown (user : Option User) (email : String) :
    methodOptions user email = (emailShown user email).map fun text =>
      ("email",text) :: ((phoneShown user).toList.map fun phone => ("phone",phone)) ++ if hasTotp user then [totpOption] else [] := by
  cases user with
  | none => simp [methodOptions,masked,emailShown,phoneShown,hasTotp,Function.comp_def]
  | some user =>
    obtain ⟨phone,masks⟩ := mask_phone (user.recoveryPhone.getD "")
    simp only [methodOptions,masked,emailShown,phoneShown,hasTotp]
    cases maskRecoveryDestination (if given user.recoveryEmail then user.recoveryEmail.getD "" else email) "email" with
    | none => simp
    | some text => cases given user.recoveryPhone <;> cases totp : given user.totpSecret <;> simp [masks,totp]

-- The options of two databases look the same.
def OptionsAlike (email : String) (user user' : Option User) : Prop :=
  emailShown user email = emailShown user' email ∧
    (emailShown user email ≠ none → phoneShown user = phoneShown user' ∧ hasTotp user = hasTotp user')

theorem totpOption_apart (phone : List Char) : totpOption ≠ ("phone",phone) := by
  intro same
  have names : "totp" = "phone" := congrArg Prod.fst same
  simp at names

theorem methodOptions_alike (email : String) (user user' : Option User) :
    methodOptions user email = methodOptions user' email ↔ OptionsAlike email user user' := by
  rw [methodOptions_shown,methodOptions_shown,OptionsAlike]
  cases emailShown user email with
  | none => cases emailShown user' email <;> simp
  | some text =>
    cases emailShown user' email with
    | none => simp
    | some text' =>
      cases phoneShown user <;> cases phoneShown user' <;> cases hasTotp user <;> cases hasTotp user' <;>
        simp [totpOption_apart,(totpOption_apart _).symm]

def ListsAlike (get : Bool) (email : String) : Prop :=
  get = true → rt.toLower (trimSpace email) ≠ "" → draw.connects = true →
    OptionsAlike (rt.toLower (trimSpace email)) (one.lowerEmail rt draw (rt.toLower (trimSpace email)))
      (two.lowerEmail rt draw (rt.toLower (trimSpace email)))

theorem recoveryFlowOptions_alike (get : Bool) (email : String) :
    (recoveryFlowOptionsHandler rt one draw get email).visible = (recoveryFlowOptionsHandler rt two draw get email).visible ↔
      ListsAlike rt draw one two get email := by
  unfold recoveryFlowOptionsHandler ListsAlike
  dsimp only
  split
  · rename_i wrong
    simp [wrong]
  · rename_i right
    split
    · rename_i empty
      simp [empty]
    · rename_i named
      split
      · rename_i off
        simp [off]
      · rename_i on
        have reached : get = true ∧ draw.connects = true := by
          constructor
          · simpa using right
          · simpa using on
        rw [← methodOptions_alike]
        simp only [reached.1,reached.2,named,ne_eq,not_false_eq_true,forall_const]
        cases methodOptions (one.lowerEmail rt draw (rt.toLower (trimSpace email))) (rt.toLower (trimSpace email)) <;>
          cases methodOptions (two.lowerEmail rt draw (rt.toLower (trimSpace email))) (rt.toLower (trimSpace email)) <;>
          simp [Response.visible]

theorem recovery_answers_alike_iff (post get : Bool) (body : Option RecoveryBody) (email : String) :
    ((recoveryFlowRequestHandler rt secrets n one draw post body).2.visible =
        (recoveryFlowRequestHandler rt secrets n two draw post body).2.visible ↔
      RecoversAlike rt secrets draw one two post body) ∧
    ((recoveryFlowOptionsHandler rt one draw get email).visible = (recoveryFlowOptionsHandler rt two draw get email).visible ↔
      ListsAlike rt draw one two get email) :=
  ⟨recoveryFlowRequest_alike rt secrets n draw one two post body,recoveryFlowOptions_alike rt draw one two get email⟩

end

def nobody : Database := ⟨0,[],[],[],[],fun _ => 0⟩

def withAlice : Database := {nobody with users:=[{alice with recoveryPhone:=some "+15550100"}]}

def firstDraw : Draw := ⟨true,true,[],1,true,true,true,true,true,true,"token",7,some "free"⟩

def noSecrets : Secrets := ⟨fun _ => none,fun _ => none,fun _ => ⟨23456,by decide⟩⟩

-- The default method names the account by three further fields, the authenticator app by
-- the status; the options list the phone of the account.
theorem account_enumerated :
    (recoveryFlowRequestHandler plainRuntime noSecrets 0 nobody firstDraw true (some ⟨"alice@example.org",""⟩)).2.visible ≠
      (recoveryFlowRequestHandler plainRuntime noSecrets 0 withAlice firstDraw true (some ⟨"alice@example.org",""⟩)).2.visible ∧
    (recoveryFlowRequestHandler plainRuntime noSecrets 0 nobody firstDraw true (some ⟨"alice@example.org","totp"⟩)).2.visible ≠
      (recoveryFlowRequestHandler plainRuntime noSecrets 0 withAlice firstDraw true (some ⟨"alice@example.org","totp"⟩)).2.visible ∧
    (recoveryFlowOptionsHandler plainRuntime nobody firstDraw true "alice@example.org").visible ≠
      (recoveryFlowOptionsHandler plainRuntime withAlice firstDraw true "alice@example.org").visible := by
  refine ⟨?_,?_,?_⟩ <;> decide +kernel

end ByosMail.AuthAnswers
