import ByosMail.AccountEnumeration

-- Which answers carry a one-time code or a wrapped key to somebody who has shown neither a
-- session nor a code.
namespace ByosMail.AuthAnswers
open GoText Auth

inductive Request where
  | recoveryFlowRequest (post : Bool) (body : Option RecoveryBody)
  | login (post : Bool) (ip : String) (body : Option LoginBody)
  | login2FASendCode (post : Bool) (body : Option SendCodeBody)

structure Call where
  -- Seconds since the call before.
  waits : Nat
  draw : Draw
  request : Request

def Database.wait (db : Database) (seconds : Nat) : Database := {db with now:=db.now + seconds}

section
variable (rt : Runtime) (secrets : Secrets) (n : Nat) (db : Database)

def serve (draw : Draw) : Request → Database × Response
  | .recoveryFlowRequest post body => recoveryFlowRequestHandler rt secrets n db draw post body
  | .login post ip body => loginHandler rt secrets n db draw post ip body
  | .login2FASendCode post body => login2FASendCodeHandler rt secrets n db draw post body

def Call.serve (call : Call) : Database × Response := AuthAnswers.serve rt secrets n (db.wait call.waits) call.draw call.request

-- The answers to a sequence of calls, the n-th code drawn for the first of them.
def serveAll (n : Nat) (db : Database) : List Call → List Response
  | [] => []
  | call :: rest => (call.serve rt secrets n db).2 :: serveAll (n + 1) (call.serve rt secrets n db).1 rest

end

def uncoded (challenge : Challenge) : Challenge := {challenge with verificationCode:=none}

def SameButCodes (db db' : Database) : Prop :=
  ∃ rows, db' = {db with challenges:=rows} ∧ rows.map uncoded = db.challenges.map uncoded

theorem SameButCodes.refl (db : Database) : SameButCodes db db := ⟨db.challenges,rfl,rfl⟩

theorem SameButCodes.clock (same : SameButCodes db db') : db'.now = db.now := by
  obtain ⟨rows,rfl,-⟩ := same
  rfl

theorem SameButCodes.wait (same : SameButCodes db db') (seconds : Nat) : SameButCodes (db.wait seconds) (db'.wait seconds) := by
  obtain ⟨rows,rfl,codes⟩ := same
  exact ⟨rows,rfl,codes⟩

theorem SameButCodes.drop (same : SameButCodes db db') (keys : List String) : SameButCodes (db.drop keys) (db'.drop keys) := by
  obtain ⟨rows,rfl,codes⟩ := same
  exact ⟨rows,rfl,codes⟩

theorem SameButCodes.insertChallenge (same : SameButCodes db db') (alike : uncoded challenge = uncoded challenge') :
    SameButCodes (db.insertChallenge challenge) (db'.insertChallenge challenge') := by
  obtain ⟨rows,rfl,codes⟩ := same
  refine ⟨rows ++ [challenge'],rfl,?_⟩
  simp [Database.insertChallenge,codes,alike]

theorem uncoded_update (challengeId expires : Nat) (code : String) (rows : List Challenge) :
    (Table.update (fun c : Challenge => c.id = challengeId)
      (fun c => {c with verificationCode:=some code,expiresAt:=expires}) rows).map uncoded =
    Table.update (fun c : Challenge => c.id = challengeId) (fun c => {c with expiresAt:=expires}) (rows.map uncoded) := by
  simp only [Table.update,List.map_map]
  apply List.map_congr_left
  intro c _
  by_cases hit : c.id = challengeId
  · simp [hit,uncoded]
  · simp [hit,uncoded]

theorem SameButCodes.resend (same : SameButCodes db db') (challengeId : Nat) (code code' : String) :
    SameButCodes (db.resend challengeId code) (db'.resend challengeId code') := by
  obtain ⟨rows,rfl,codes⟩ := same
  refine ⟨_,rfl,?_⟩
  show (Table.update _ _ rows).map uncoded = (Table.update _ _ db.challenges).map uncoded
  rw [uncoded_update,uncoded_update,codes]

theorem find_uncoded (hits : Challenge → Bool) (blind : ∀ c, hits (uncoded c) = hits c) (rows : List Challenge) :
    (rows.map uncoded).find? hits = (rows.find? hits).map uncoded := by
  rw [List.find?_map]
  congr 2
  funext c
  exact blind c

theorem SameButCodes.loginChallenge (same : SameButCodes db db') (challengeToken : String) :
    (db'.loginChallenge challengeToken).map uncoded = (db.loginChallenge challengeToken).map uncoded := by
  obtain ⟨rows,rfl,codes⟩ := same
  unfold Database.loginChallenge
  rw [← find_uncoded _ (fun _ => rfl),← find_uncoded _ (fun _ => rfl),codes]

-- Two choices of codes and keys that no answer with a secret in it maps to one text.
def lowSecrets : Secrets := ⟨fun _ => some "a",fun _ => some "a",fun _ => ⟨0,by decide⟩⟩

def highSecrets : Secrets := ⟨fun _ => some "b",fun _ => some "b",fun _ => ⟨1,by decide⟩⟩

theorem codes_differ (n : Nat) : generate6DigitOTP (lowSecrets.code n) ≠ generate6DigitOTP (highSecrets.code n) := by
  have apart : (100000 : Nat).repr ≠ (100001 : Nat).repr := by decide +kernel
  exact apart

theorem keys_differ (found : mailbox.isSome) :
    keyText lowSecrets.wrappedSkUser mailbox ≠ keyText highSecrets.wrappedSkUser mailbox := by
  obtain ⟨row,rfl⟩ := Option.isSome_iff_exists.mp found
  simp [keyText,lowSecrets,highSecrets]

section
variable (rt : Runtime) (secrets secrets' : Secrets) (n : Nat) (db : Database) (draw : Draw)

-- A code is made and its answer does not panic, or the totp answer has a mailbox to tell of.
def RecoveryReveals (email method : String) (user : User) : Prop :=
  draw.writes = true ∧
    if method = "totp" then given user.totpSecret = true ∧ (db.recoveryMailbox draw user.id).isSome
    else (method = "phone" → given user.recoveryPhone = true) ∧ draw.drawsCode = true ∧
      (maskRecoveryDestination (recoveryDestination user email method) method).isSome

theorem recoveryAnswer_same (same : SameButCodes db db') (email method : String) (user : User) :
    SameButCodes (recoveryAnswer secrets n db draw email method user).1 (recoveryAnswer secrets' n db' draw email method user).1 := by
  unfold recoveryAnswer
  split_ifs
  · exact same
  · exact same
  · exact same.insertChallenge (by simp [uncoded,same.clock])
  · exact same
  · exact same
  · exact same
  · exact same.insertChallenge (by simp [uncoded,same.clock])

theorem mailboxFields_hidden (none : mailbox.isSome = false) : mailboxFields secrets mailbox = mailboxFields secrets' mailbox := by
  cases mailbox with
  | none => rfl
  | some row => simp at none

theorem recoveryAnswer_hidden (same : SameButCodes db db') (hidden : ¬RecoveryReveals db draw email method user) :
    (recoveryAnswer secrets n db draw email method user).2 = (recoveryAnswer secrets' n db' draw email method user).2 := by
  obtain ⟨rows,rfl,-⟩ := same
  by_cases totp : method = "totp"
  · simp only [RecoveryReveals,totp,if_true,not_and,Bool.not_eq_true] at hidden
    unfold recoveryAnswer
    simp only [totp,if_true]
    split
    · rfl
    · rename_i enrolled
      split
      · rfl
      · rename_i written
        have empty := hidden (by simpa using written) (by simpa using enrolled)
        show Response.json 200 (_ ++ mailboxFields secrets (db.recoveryMailbox draw user.id)) =
          .json 200 (_ ++ mailboxFields secrets' (db.recoveryMailbox draw user.id))
        rw [mailboxFields_hidden secrets secrets' empty]
        rfl
  · rw [recoveryAnswer_code secrets n draw db email user totp,recoveryAnswer_code secrets' n draw _ email user totp]
    simp only [RecoveryReveals,if_neg totp,not_and] at hidden
    unfold codeBranch
    split
    · rfl
    · rename_i reachable
      split
      · rfl
      · rename_i drawn
        split
        · rfl
        · rename_i written
          have panics := hidden (by simpa using written) (by simpa using reachable) (by simpa using drawn)
          have none : maskRecoveryDestination (recoveryDestination user email method) method = none := by
            simpa using panics
          simp only [codeAnswer,none]

theorem recoveryAnswer_told (same : SameButCodes db db') (reveals : RecoveryReveals db draw email method user) :
    (recoveryAnswer lowSecrets n db draw email method user).2 ≠ (recoveryAnswer highSecrets n db' draw email method user).2 := by
  obtain ⟨rows,rfl,-⟩ := same
  obtain ⟨written,reveals⟩ := reveals
  by_cases totp : method = "totp"
  · rw [if_pos totp] at reveals
    have apart := keys_differ reveals.2
    intro equal
    apply apart
    simpa [recoveryAnswer,totp,reveals.1,written,mailboxFields,Database.recoveryMailbox,expiry] using equal
  · rw [if_neg totp] at reveals
    obtain ⟨reachable,drawn,masks⟩ := reveals
    obtain ⟨text,masks⟩ := Option.isSome_iff_exists.mp masks
    have passes : ¬(method = "phone" ∧ given user.recoveryPhone = false) := by
      rintro ⟨phone,missing⟩
      simp [reachable phone] at missing
    rw [recoveryAnswer_code lowSecrets n draw db email user totp,recoveryAnswer_code highSecrets n draw _ email user totp,
      if_neg passes,if_neg passes]
    intro equal
    apply codes_differ n
    have answers : codeAnswer lowSecrets n db draw email method user =
        codeAnswer highSecrets n {db with challenges:=rows} draw email method user := by
      simpa [codeBranch,drawn,written] using equal
    simp only [codeAnswer,masks,Response.json.injEq,true_and] at answers
    have last := (List.append_inj' answers (by simp only [List.length_singleton])).2
    simpa only [List.cons.injEq,Prod.mk.injEq,Value.random.injEq,true_and,and_true] using last

-- A login whose password is right shows the code it makes, or the key where no second factor
-- is asked for.
def LoginReveals (user : User) : Prop :=
  draw.writes = true ∧
    if draw.readsUser = true ∧ user.twoFactorEnabled = true then
      draw.drawsToken = true ∧ user.preferredMethod ≠ .totp ∧ draw.drawsCode = true ∧ (loginMask user).any wellFormed
    else (db.loginMailbox draw user.id).isSome

theorem secondFactor_same (same : SameButCodes db db') (user : User) :
    SameButCodes (secondFactor secrets n db draw user).1 (secondFactor secrets' n db' draw user).1 := by
  unfold secondFactor
  split
  · exact same
  · split
    · exact same
    · split
      · exact same
      · exact same.insertChallenge (by simp [uncoded,same.clock])

theorem loginCode_hidden (hidden : user.preferredMethod = .totp ∨ draw.drawsCode = false) :
    loginCode secrets n draw user = loginCode secrets' n draw user := by
  unfold loginCode
  rcases hidden with totp | undrawn
  · simp [totp]
  · simp [undrawn]

theorem secondFactor_hidden (hidden : ¬(draw.writes = true ∧ draw.drawsToken = true ∧ user.preferredMethod ≠ .totp ∧
      draw.drawsCode = true ∧ (loginMask user).any wellFormed)) :
    (secondFactor secrets n db draw user).2 = (secondFactor secrets' n db' draw user).2 := by
  unfold secondFactor
  split
  · rfl
  · rename_i token
    split
    · rfl
    · rename_i text masks
      dsimp only
      split
      · rfl
      · rename_i stored
        simp only [not_or,Bool.not_eq_false] at stored
        have secret : user.preferredMethod = .totp ∨ draw.drawsCode = false := by
          by_contra told
          simp only [not_or,Bool.not_eq_false] at told
          apply hidden
          exact ⟨stored.1,by simpa using token,told.1,told.2,by simpa [masks] using stored.2⟩
        rw [loginCode_hidden secrets secrets' n draw secret]

theorem secondFactor_told (written : draw.writes = true) (token : draw.drawsToken = true) (prefers : user.preferredMethod ≠ .totp)
    (drawn : draw.drawsCode = true) (masks : (loginMask user).any wellFormed) :
    (secondFactor lowSecrets n db draw user).2 ≠ (secondFactor highSecrets n db' draw user).2 := by
  cases mask : loginMask user with
  | none => simp [mask] at masks
  | some text =>
    have formed : wellFormed text = true := by simpa [mask] using masks
    intro equal
    apply codes_differ n
    simpa [secondFactor,token,mask,written,formed,loginCode,prefers,drawn] using equal

theorem signIn_hidden (hidden : ¬(draw.writes = true ∧ (db.loginMailbox draw user.id).isSome)) (same : SameButCodes db db') :
    (signIn secrets db draw user).2 = (signIn secrets' db' draw user).2 := by
  obtain ⟨rows,rfl,-⟩ := same
  unfold signIn
  split
  · rfl
  · rename_i written
    have empty : db.loginMailbox draw user.id = none := by
      by_contra found
      apply hidden
      exact ⟨by simpa using written,Option.isSome_iff_ne_none.mpr found⟩
    have empty' : Database.loginMailbox {db with challenges:=rows} draw user.id = none := empty
    simp only [empty,empty',keyText]
    rfl

theorem signIn_told (written : draw.writes = true) (found : (db.loginMailbox draw user.id).isSome) (same : SameButCodes db db') :
    (signIn lowSecrets db draw user).2 ≠ (signIn highSecrets db' draw user).2 := by
  obtain ⟨rows,rfl,-⟩ := same
  intro equal
  apply keys_differ found
  simp only [signIn,written,Bool.true_eq_false,if_false] at equal
  -- wrapped_sk_user is the eleventh field.
  have key := congrArg (·[10]?) (Response.json.inj equal).2
  simp only [List.getElem?_cons_succ,List.getElem?_cons_zero,Option.some.injEq,Prod.mk.injEq,true_and] at key
  exact String.toList_injective (Value.text.inj key)

theorem loginUser_recoded (rows : List Challenge) (post : Bool) (ip : String) (body : Option LoginBody) :
    loginUser rt {db with challenges:=rows} draw post ip body =
      (loginUser rt db draw post ip body).mapError fun refused => ({refused.1 with challenges:=rows},refused.2) := by
  unfold loginUser
  by_cases wrong : post = false
  · simp only [if_pos wrong]
    rfl
  · simp only [if_neg wrong]
    cases body with
    | none => rfl
    | some body =>
      dsimp only
      generalize email : trimSpace (rt.toLower body.email) = address
      by_cases missing : address = "" ∨ body.password = ""
      · simp only [if_pos missing]
        rfl
      · simp only [if_neg missing]
        by_cases off : draw.redis = false
        · simp only [if_pos off]
          rfl
        · simp only [if_neg off]
          by_cases many : ∃ key ∈ attemptKeys ip address, 5 ≤ (db.drop draw.expired).attempts key
          · rw [if_pos many,if_pos]
            · rfl
            · exact many
          · rw [if_neg many,if_neg]
            · by_cases lost : draw.connects = false
              · simp only [if_pos lost]
                rfl
              · simp only [if_neg lost]
                rw [show Database.loginRow rt (Database.drop {db with challenges:=rows} draw.expired) draw address =
                  (db.drop draw.expired).loginRow rt draw address from rfl]
                cases (db.drop draw.expired).loginRow rt draw address with
                | none => rfl
                | some user =>
                  dsimp only
                  split <;> rfl
            · exact many

theorem signIn_database (user : User) : (signIn secrets db draw user).1 = db := by
  unfold signIn
  split <;> rfl

theorem sendCodeTarget_same (same : SameButCodes db db') (post : Bool) (body : Option SendCodeBody) :
    sendCodeTarget rt db' draw post body = sendCodeTarget rt db draw post body := by
  have target : ∀ token, (if draw.reads then db'.loginChallenge token else none).bind (fun c => c.userId.map fun userId => (c.id,userId)) =
      (if draw.reads then db.loginChallenge token else none).bind fun c => c.userId.map fun userId => (c.id,userId) := by
    intro token
    have rows := same.loginChallenge token
    have read : ∀ row : Option Challenge, row.bind (fun c => c.userId.map fun userId => (c.id,userId)) =
        (row.map uncoded).bind fun c => c.userId.map fun userId => (c.id,userId) := by
      intro row
      cases row <;> rfl
    cases draw.reads with
    | false => rfl
    | true =>
      simp only [if_true]
      rw [read,rows,← read]
  have users : db'.auth.activeUser = db.auth.activeUser := by
    obtain ⟨rows,rfl,-⟩ := same
    rfl
  unfold sendCodeTarget
  simp only [target,users]

-- The calls whose answer shows a code or a key.
def Reveals : Request → Prop
  | .recoveryFlowRequest post body => ∃ email method user, recoveryInput rt draw post body = .ok (email,method) ∧
      db.account draw email = some user ∧ RecoveryReveals db draw email method user
  | .login post ip body => ∃ user, loginUser rt db draw post ip body = .ok user ∧ LoginReveals (db.drop draw.expired) draw user
  | .login2FASendCode post body => ∃ challengeId user method, sendCodeTarget rt db draw post body = .ok (challengeId,user,method) ∧
      draw.drawsCode = true ∧ draw.writes = true ∧
      (maskRecoveryDestination (recoveryDestination user user.email method) method).any wellFormed

theorem SameButCodes.account (same : SameButCodes db db') (email : String) : db'.account draw email = db.account draw email := by
  obtain ⟨rows,rfl,-⟩ := same
  rfl

theorem recoveryFlowRequest_same (same : SameButCodes db db') (post : Bool) (body : Option RecoveryBody) :
    SameButCodes (recoveryFlowRequestHandler rt secrets n db draw post body).1
      (recoveryFlowRequestHandler rt secrets' n db' draw post body).1 := by
  unfold recoveryFlowRequestHandler
  split
  · exact same
  · rename_i email method accepted
    rw [same.account]
    split
    · exact same
    · rename_i user found
      exact recoveryAnswer_same secrets secrets' n db draw same email method user

theorem recoveryFlowRequest_hidden (same : SameButCodes db db') (hidden : ¬Reveals rt db draw (.recoveryFlowRequest post body)) :
    (recoveryFlowRequestHandler rt secrets n db draw post body).2 = (recoveryFlowRequestHandler rt secrets' n db' draw post body).2 := by
  unfold recoveryFlowRequestHandler
  split
  · rfl
  · rename_i email method accepted
    rw [same.account]
    split
    · obtain ⟨rows,rfl,-⟩ := same
      rfl
    · rename_i user found
      apply recoveryAnswer_hidden secrets secrets' n db draw same
      intro reveals
      exact hidden ⟨email,method,user,accepted,found,reveals⟩

theorem recoveryFlowRequest_told (same : SameButCodes db db') (reveals : Reveals rt db draw (.recoveryFlowRequest post body)) :
    (recoveryFlowRequestHandler rt lowSecrets n db draw post body).2 ≠
      (recoveryFlowRequestHandler rt highSecrets n db' draw post body).2 := by
  obtain ⟨email,method,user,accepted,found,reveals⟩ := reveals
  simp only [recoveryFlowRequestHandler,accepted,same.account,found]
  exact recoveryAnswer_told n db draw same reveals

theorem SameButCodes.loginUser (same : SameButCodes db db') (post : Bool) (ip : String) (body : Option LoginBody) :
    (∃ user, loginUser rt db draw post ip body = .ok user ∧ loginUser rt db' draw post ip body = .ok user) ∨
    ∃ refused refused' response, loginUser rt db draw post ip body = .error (refused,response) ∧
      loginUser rt db' draw post ip body = .error (refused',response) ∧ SameButCodes refused refused' := by
  obtain ⟨rows,rfl,codes⟩ := same
  have recoded := loginUser_recoded rt db draw rows post ip body
  -- The database of a refusal has the challenges the request found.
  have kept := loginUser_recoded rt db draw db.challenges post ip body
  cases checked : AuthAnswers.loginUser rt db draw post ip body with
  | ok user =>
    rw [checked] at recoded
    exact .inl ⟨user,rfl,recoded⟩
  | error refused =>
    rw [checked] at recoded kept
    have stored : refused.1.challenges = db.challenges := by
      have equal : refused = ({refused.1 with challenges:=db.challenges},refused.2) := Except.error.inj kept
      rw [equal]
    refine .inr ⟨refused.1,_,refused.2,rfl,recoded,rows,rfl,?_⟩
    rw [stored]
    exact codes

theorem login_same (same : SameButCodes db db') (post : Bool) (ip : String) (body : Option LoginBody) :
    SameButCodes (loginHandler rt secrets n db draw post ip body).1 (loginHandler rt secrets' n db' draw post ip body).1 := by
  unfold loginHandler
  obtain ⟨user,mine,theirs⟩ | ⟨refused,refused',response,mine,theirs,alike⟩ := same.loginUser rt db draw post ip body
  · rw [mine,theirs]
    dsimp only
    split
    · exact secondFactor_same secrets secrets' n _ draw (same.drop draw.expired) user
    · rw [signIn_database,signIn_database]
      exact same.drop draw.expired
  · rw [mine,theirs]
    exact alike

theorem login_hidden (same : SameButCodes db db') (hidden : ¬Reveals rt db draw (.login post ip body)) :
    (loginHandler rt secrets n db draw post ip body).2 = (loginHandler rt secrets' n db' draw post ip body).2 := by
  unfold loginHandler
  obtain ⟨user,mine,theirs⟩ | ⟨refused,refused',response,mine,theirs,alike⟩ := same.loginUser rt db draw post ip body
  · have secret : ¬LoginReveals (db.drop draw.expired) draw user := fun reveals => hidden ⟨user,mine,reveals⟩
    rw [mine,theirs]
    dsimp only
    split
    · rename_i required
      rw [LoginReveals,if_pos required] at secret
      exact secondFactor_hidden secrets secrets' n _ draw secret
    · rename_i single
      rw [LoginReveals,if_neg single] at secret
      exact signIn_hidden secrets secrets' _ draw secret (same.drop draw.expired)
  · rw [mine,theirs]

theorem login_told (same : SameButCodes db db') (reveals : Reveals rt db draw (.login post ip body)) :
    (loginHandler rt lowSecrets n db draw post ip body).2 ≠ (loginHandler rt highSecrets n db' draw post ip body).2 := by
  obtain ⟨user,mine,written,reveals⟩ := reveals
  unfold loginHandler
  obtain ⟨user',mine',theirs⟩ | ⟨refused,refused',response,mine',-,-⟩ := same.loginUser rt db draw post ip body
  · obtain rfl := Except.ok.inj (mine.symm.trans mine')
    rw [mine,theirs]
    dsimp only
    split
    · rename_i required
      rw [if_pos required] at reveals
      obtain ⟨token,prefers,drawn,masks⟩ := reveals
      exact secondFactor_told n _ draw written token prefers drawn masks
    · rename_i single
      rw [if_neg single] at reveals
      exact signIn_told _ draw written reveals (same.drop draw.expired)
  · rw [mine] at mine'
    cases mine'

theorem login2FASendCode_same (same : SameButCodes db db') (post : Bool) (body : Option SendCodeBody) :
    SameButCodes (login2FASendCodeHandler rt secrets n db draw post body).1
      (login2FASendCodeHandler rt secrets' n db' draw post body).1 := by
  unfold login2FASendCodeHandler
  rw [sendCodeTarget_same rt db draw same]
  split
  · exact same
  · split
    · exact same
    · split
      · exact same
      · dsimp only
        split
        · exact same
        · exact same.resend _ _ _

theorem login2FASendCode_hidden (same : SameButCodes db db') (hidden : ¬Reveals rt db draw (.login2FASendCode post body)) :
    (login2FASendCodeHandler rt secrets n db draw post body).2 = (login2FASendCodeHandler rt secrets' n db' draw post body).2 := by
  unfold login2FASendCodeHandler
  rw [sendCodeTarget_same rt db draw same]
  split
  · rfl
  · rename_i challengeId user method target
    split
    · rfl
    · rename_i drawn
      split
      · rfl
      · rename_i text masks
        dsimp only
        split
        · rfl
        · rename_i stored
          simp only [not_or,Bool.not_eq_false] at stored
          exact absurd ⟨challengeId,user,method,target,by simpa using drawn,stored.1,by simpa [masks] using stored.2⟩ hidden

theorem login2FASendCode_told (same : SameButCodes db db') (reveals : Reveals rt db draw (.login2FASendCode post body)) :
    (login2FASendCodeHandler rt lowSecrets n db draw post body).2 ≠
      (login2FASendCodeHandler rt highSecrets n db' draw post body).2 := by
  obtain ⟨challengeId,user,method,target,drawn,written,masks⟩ := reveals
  cases mask : maskRecoveryDestination (recoveryDestination user user.email method) method with
  | none => simp [mask] at masks
  | some text =>
    have formed : wellFormed text = true := by simpa [mask] using masks
    intro equal
    apply codes_differ n
    simpa [login2FASendCodeHandler,sendCodeTarget_same rt db draw same,target,drawn,mask,written,formed] using equal

theorem serve_same (same : SameButCodes db db') (request : Request) :
    SameButCodes (serve rt secrets n db draw request).1 (serve rt secrets' n db' draw request).1 := by
  cases request with
  | recoveryFlowRequest post body => exact recoveryFlowRequest_same rt secrets secrets' n db draw same post body
  | login post ip body => exact login_same rt secrets secrets' n db draw same post ip body
  | login2FASendCode post body => exact login2FASendCode_same rt secrets secrets' n db draw same post body

theorem serve_hidden (same : SameButCodes db db') (request : Request) (hidden : ¬Reveals rt db draw request) :
    (serve rt secrets n db draw request).2 = (serve rt secrets' n db' draw request).2 := by
  cases request with
  | recoveryFlowRequest post body => exact recoveryFlowRequest_hidden rt secrets secrets' n db draw same hidden
  | login post ip body => exact login_hidden rt secrets secrets' n db draw same hidden
  | login2FASendCode post body => exact login2FASendCode_hidden rt secrets secrets' n db draw same hidden

theorem serve_told (same : SameButCodes db db') (request : Request) (reveals : Reveals rt db draw request) :
    (serve rt lowSecrets n db draw request).2 ≠ (serve rt highSecrets n db' draw request).2 := by
  cases request with
  | recoveryFlowRequest post body => exact recoveryFlowRequest_told rt n db draw same reveals
  | login post ip body => exact login_told rt n db draw same reveals
  | login2FASendCode post body => exact login2FASendCode_told rt n db draw same reveals

end

-- No call of the sequence shows a secret, each judged in the database it meets.
def Quiet (rt : Runtime) (secrets : Secrets) (n : Nat) (db : Database) : List Call → Prop
  | [] => True
  | call :: rest => ¬Reveals rt (db.wait call.waits) call.draw call.request ∧
      Quiet rt secrets (n + 1) (call.serve rt secrets n db).1 rest

theorem Call.serve_same (same : SameButCodes db db') (rt : Runtime) (secrets secrets' : Secrets) (n : Nat) (call : Call) :
    SameButCodes (call.serve rt secrets n db).1 (call.serve rt secrets' n db').1 :=
  AuthAnswers.serve_same rt secrets secrets' n _ call.draw (same.wait call.waits) call.request

theorem quiet_answers (rt : Runtime) (secrets secrets' : Secrets) (n : Nat) (calls : List Call) (same : SameButCodes db db')
    (quiet : Quiet rt secrets n db calls) : serveAll rt secrets n db calls = serveAll rt secrets' n db' calls := by
  induction calls generalizing n db db' with
  | nil => rfl
  | cons call rest ih =>
    obtain ⟨hidden,quiet⟩ := quiet
    have head := serve_hidden rt secrets secrets' n _ call.draw (same.wait call.waits) call.request hidden
    have tail := ih (n + 1) (call.serve_same same rt secrets secrets' n) quiet
    simp only [serveAll]
    rw [tail]
    exact congrArg (· :: _) head

theorem SameButCodes.reveals (same : SameButCodes db db') (rt : Runtime) (draw : Draw) (request : Request)
    (reveals : Reveals rt db' draw request) : Reveals rt db draw request := by
  cases request with
  | recoveryFlowRequest post body =>
    obtain ⟨rows,rfl,-⟩ := same
    exact reveals
  | login post ip body =>
    obtain ⟨user,accepted,reveals⟩ := reveals
    obtain ⟨user',mine,theirs⟩ | ⟨_,_,_,-,theirs,-⟩ := same.loginUser rt db draw post ip body
    · obtain rfl := Except.ok.inj (accepted.symm.trans theirs)
      obtain ⟨rows,rfl,-⟩ := same
      exact ⟨user,mine,reveals⟩
    · rw [accepted] at theirs
      cases theirs
  | login2FASendCode post body =>
    obtain ⟨challengeId,user,method,target,reveals⟩ := reveals
    rw [sendCodeTarget_same rt db draw same] at target
    exact ⟨challengeId,user,method,target,reveals⟩

theorem Quiet.recoded (same : SameButCodes db db') (rt : Runtime) (secrets secrets' : Secrets) (n : Nat) (calls : List Call)
    (quiet : Quiet rt secrets n db calls) : Quiet rt secrets' n db' calls := by
  induction calls generalizing n db db' with
  | nil => trivial
  | cons call rest ih =>
    obtain ⟨hidden,quiet⟩ := quiet
    constructor
    · intro reveals
      exact hidden ((same.wait call.waits).reveals rt call.draw call.request reveals)
    · exact ih (call.serve_same same rt secrets secrets' n) (n + 1) quiet

theorem quiet_of_answers (rt : Runtime) (n : Nat) (calls : List Call) (same : SameButCodes db db')
    (equal : serveAll rt lowSecrets n db calls = serveAll rt highSecrets n db' calls) : Quiet rt lowSecrets n db calls := by
  induction calls generalizing n db db' with
  | nil => trivial
  | cons call rest ih =>
    obtain ⟨head,tail⟩ := List.cons.inj equal
    constructor
    · intro reveals
      exact serve_told rt n _ call.draw (same.wait call.waits) call.request reveals head
    · exact ih (n + 1) (call.serve_same same rt lowSecrets highSecrets n) tail

theorem answers_secret_iff (rt : Runtime) (secrets : Secrets) (n : Nat) (db : Database) (calls : List Call) :
    (∀ one two db', SameButCodes db db' → serveAll rt one n db calls = serveAll rt two n db' calls) ↔
      Quiet rt secrets n db calls := by
  constructor
  · intro equal
    have quiet := quiet_of_answers rt n calls (.refl db) (equal lowSecrets highSecrets db (.refl db))
    exact quiet.recoded (.refl db) rt lowSecrets secrets n calls
  · intro quiet one two db' same
    have mine := quiet_answers rt secrets one n calls (.refl db) quiet
    have theirs := quiet_answers rt secrets two n calls same quiet
    exact mine.symm.trans theirs

def aliceMail : Database := {withAlice with mailboxes:=[⟨10,some 1,true,"active","alice","private",0⟩]}

def recoverAlice : Call := ⟨0,firstDraw,.recoveryFlowRequest true (some ⟨"alice@example.org","email"⟩)⟩

def signInAlice : Call := ⟨0,firstDraw,.login true "192.0.2.1" (some ⟨"alice@example.org","secret"⟩)⟩

def resendAlice : Call := ⟨60,firstDraw,.login2FASendCode true (some ⟨"token","phone"⟩)⟩

-- The e-mail address alone gets code and key; the password gets the code, twice.
theorem secrets_shown :
    serveAll plainRuntime lowSecrets 0 aliceMail [recoverAlice] ≠ serveAll plainRuntime highSecrets 0 aliceMail [recoverAlice] ∧
    serveAll plainRuntime lowSecrets 0 aliceMail [signInAlice] ≠ serveAll plainRuntime highSecrets 0 aliceMail [signInAlice] ∧
    (serveAll plainRuntime lowSecrets 0 aliceMail [signInAlice,resendAlice]).tail ≠
      (serveAll plainRuntime highSecrets 0 aliceMail [signInAlice,resendAlice]).tail := by
  refine ⟨?_,?_,?_⟩ <;> decide +kernel

end ByosMail.AuthAnswers
