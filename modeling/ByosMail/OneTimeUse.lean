import ByosMail.OneTimeGrants

-- A recovery challenge and an invitation are used at most once, whatever else runs meanwhile.
namespace ByosMail.OneTimeGrants
open GoText Machine Transactions
open Auth (Runtime User ClaimBody)
open MailboxKeys (Mailbox Invitation Reply)

abbrev Deed := Action Data Lock Stage

inductive VerifyActs (request : Request) (challengeID : String) (clock : Nat) (view : Data) : Point → Deed → Prop where
  | refused (other : status ≠ 200) :
      VerifyActs request challengeID clock view point (.rollback ⟨request,.done ⟨status,message⟩⟩)
  | read (named : Uuid.read (trimSpace challengeID) = some challengeId)
      (found : view.openChallenge clock challengeId = some row) :
      VerifyActs request challengeID clock view .start (.single [] id ⟨request,.signed userId⟩)
  | consumed (named : Uuid.read (trimSpace challengeID) = some challengeId)
      (unused : ∃ c ∈ view.challenges, c.challengeId = challengeId ∧ c.consumedAt = none) :
      VerifyActs request challengeID clock view (.signed userId)
        (.single [.challenge challengeId] (consume · challengeId clock) ⟨request,.redeemed userId⟩)
  | restored : VerifyActs request challengeID clock view (.redeemed userId) (.single [] (insertSession · row) (ok request))

theorem recoveryVerifyHandler_acts (acts : recoveryVerifyHandler rt request challengeID signature point clock view draw = some action) :
    VerifyActs request challengeID clock view point action := by
  have failing : ∀ {point}, failed request = some action → VerifyActs request challengeID clock view point action := by
    rintro point ⟨⟩
    exact .refused (by decide)
  cases point with
  | start =>
    simp only [recoveryVerifyHandler] at acts
    split at acts
    · exact failing acts
    · split at acts
      · cases acts
        exact .refused (by decide)
      · split at acts
        · exact failing acts
        · rename_i challenge found
          split at acts
          · exact failing acts
          · split at acts
            · cases acts
              split at found
              · cases found
              · obtain ⟨challengeId,named,found⟩ := Option.bind_eq_some_iff.mp found
                exact .read named found
            · exact failing acts
  | signed userId =>
    simp only [recoveryVerifyHandler] at acts
    split at acts
    · exact failing acts
    · rename_i challengeId named
      split at acts
      · exact failing acts
      · rename_i unused
        cases acts
        rw [not_or,not_not] at unused
        exact .consumed named unused.2
  | redeemed userId =>
    simp only [recoveryVerifyHandler] at acts
    split at acts
    · cases acts
      exact .refused (by decide)
    · cases acts
      exact .restored
  | _ => simp [recoveryVerifyHandler] at acts

theorem recoveryVerify_acts
    (acts : program rt ⟨.recoveryVerify challengeID signature,point⟩ began clock view draw = some action) :
    VerifyActs (.recoveryVerify challengeID signature) challengeID clock view point action := by
  have handled : recoveryVerifyHandler rt (.recoveryVerify challengeID signature) challengeID signature point clock view draw =
    some action := acts
  exact recoveryVerifyHandler_acts handled

inductive ClaimActs (rt : Runtime) (request : Request) (body : ClaimBody) (clock : Nat) (view : Data) : Point → Deed → Prop where
  | refused (other : status ≠ 200) : ClaimActs rt request body clock view point (.rollback ⟨request,.done ⟨status,message⟩⟩)
  | opened (hash : String) : ClaimActs rt request body clock view .start (.begin ⟨request,.locking hash⟩)
  | read (hash : String) (found : view.invitations.find? (·.tokenHash = (keyPart rt body).tokenHash) = some row) :
      ClaimActs rt request body clock view (.locking hash) (.statement [.invitation row.tokenHash] id ⟨request,.locked hash row⟩)
  | admitted (hash : String) (unused : row.consumed = false) (fresh : ¬row.expiresAt < clock) :
      ClaimActs rt request body clock view (.locked hash row) (.statement [] id ⟨request,.owned hash row mailboxPk userId⟩)
  | activated (hash : String) (set : User → User) : ClaimActs rt request body clock view (.owned hash row mailboxPk userId)
      (.statement [.user userId] (activateUser · set userId) ⟨request,.activated row mailboxPk userId⟩)
  | keyed (set : Mailbox → Mailbox) : ClaimActs rt request body clock view (.activated row mailboxPk userId)
      (.statement [.mailbox row.mailboxId] (activateMailbox · set row.mailboxId) ⟨request,.keyed row mailboxPk userId⟩)
  | consumed : ClaimActs rt request body clock view (.keyed row mailboxPk userId)
      (.statement [.invitation row.tokenHash] (consumeInvitation · row.tokenHash mailboxPk) ⟨request,.spent userId⟩)
  | inserted (session : LoginSession) : ClaimActs rt request body clock view (.spent userId)
      (.statement [] (insertSession · session) ⟨request,.signedIn⟩)
  | committed : ClaimActs rt request body clock view .signedIn (.commit id (ok request))

theorem hash_refused {body : ClaimBody} {reply : Auth.Reply} (refused : body.hash rt salt = .error reply) : reply.status ≠ 200 := by
  unfold ClaimBody.hash at refused
  split at refused
  · split at refused
    · cases refused
      decide
    · split at refused
      · cases refused
        decide
      · cases refused
  · split at refused
    · cases refused
    · cases refused
      decide

theorem invitationClaim_acts (acts : invitationClaimHandler rt request body point clock view draw = some action) :
    ClaimActs rt request body clock view point action := by
  have refusing : ∀ {point status message}, status ≠ 200 → refuse request status message = some action →
      ClaimActs rt request body clock view point action := by
    rintro point status message other ⟨⟩
    exact .refused other
  cases point with
  | start =>
    simp only [invitationClaimHandler] at acts
    split at acts
    · exact refusing (by decide) acts
    · split at acts
      · exact refusing (by decide) acts
      · split at acts
        · rename_i reply refused
          exact refusing (hash_refused refused) acts
        · rename_i hash hashed
          split at acts
          · exact refusing (by decide) acts
          · split at acts
            · exact refusing (by decide) acts
            · cases acts
              exact .opened hash
  | locking hash =>
    simp only [invitationClaimHandler] at acts
    split at acts
    · exact refusing (by decide) acts
    · rename_i row found
      cases acts
      split at found
      · cases found
      · exact .read hash found
  | locked hash row =>
    simp only [invitationClaimHandler] at acts
    split at acts
    · exact refusing (by decide) acts
    · rename_i unused
      split at acts
      · exact refusing (by decide) acts
      · rename_i fresh
        split at acts
        · exact refusing (by decide) acts
        · split at acts
          · exact refusing (by decide) acts
          · cases acts
            exact .admitted hash (by simpa using unused) fresh
  | owned hash row mailboxPk userId =>
    simp only [invitationClaimHandler] at acts
    split at acts
    · exact refusing (by decide) acts
    · cases acts
      exact .activated hash _
  | activated row mailboxPk userId =>
    simp only [invitationClaimHandler] at acts
    split at acts
    · exact refusing (by decide) acts
    · cases acts
      exact .keyed _
  | keyed row mailboxPk userId =>
    simp only [invitationClaimHandler] at acts
    split at acts
    · exact refusing (by decide) acts
    · cases acts
      exact .consumed
  | spent userId =>
    simp only [invitationClaimHandler] at acts
    split at acts
    · exact refusing (by decide) acts
    · cases acts
      exact .inserted _
  | signedIn =>
    simp only [invitationClaimHandler] at acts
    split at acts
    · exact refusing (by decide) acts
    · cases acts
      exact .committed
  | _ => simp [invitationClaimHandler] at acts

inductive Grant where
  | challenge (challengeId : Nat)
  | invitation (tokenHash : String)
  deriving DecidableEq

def Request.grant (rt : Runtime) : Request → Option Grant
  | .recoveryVerify challengeID _ => (Uuid.read (trimSpace challengeID)).map .challenge
  | .invitationClaim body => some (.invitation (keyPart rt body).tokenHash)
  | _ => none

-- The columns of an invitation that decide whether it can be used.
def mark (row : Invitation) : String × Bool := (row.tokenHash,row.consumed)

def Data.marks (d : Data) : List (String × Bool) := d.invitations.map mark

def Spent (d : Data) : Grant → Prop
  | .challenge challengeId => challengeId ∈ d.challengeIds ∧ ∀ c ∈ d.challenges, c.challengeId = challengeId → c.consumedAt ≠ none
  | .invitation tokenHash => tokenHash ∈ d.tokenHashes ∧ (tokenHash,false) ∉ d.marks

def Usable (d : Data) : Grant → Prop
  | .challenge challengeId => ∃ c ∈ d.challenges, c.challengeId = challengeId ∧ c.consumedAt = none
  | .invitation tokenHash => (tokenHash,false) ∈ d.marks

theorem Usable.not_spent (usable : Usable d grant) : ¬Spent d grant := by
  intro spent
  cases grant with
  | challenge challengeId =>
    obtain ⟨row,member,named,unused⟩ := usable
    exact spent.2 row member named unused
  | invitation tokenHash => exact spent.2 usable

-- The two columns are unique and their values drawn.
structure Valid (d : Data) : Prop where
  challenges : (d.challenges.map (·.challengeId)).Nodup
  challengeIds : ∀ id ∈ d.challenges.map (·.challengeId), id ∈ d.challengeIds
  invitations : (d.marks.map Prod.fst).Nodup
  tokenHashes : ∀ hash ∈ d.marks.map Prod.fst, hash ∈ d.tokenHashes

-- What the others may rely on across a step under these locks.
structure Moves (locks : List Lock) (d d' : Data) : Prop where
  valid : Valid d'
  spent : ∀ grant, Spent d grant → Spent d' grant
  kept : ∀ tokenHash consumed, .invitation tokenHash ∉ locks → (tokenHash,consumed) ∈ d.marks → (tokenHash,consumed) ∈ d'.marks

-- Neither challenges nor the marks of invitations are touched.
structure Spares (d d' : Data) : Prop where
  challenges : d'.challenges = d.challenges
  challengeIds : d'.challengeIds = d.challengeIds
  tokenHashes : d'.tokenHashes = d.tokenHashes
  marks : d'.marks = d.marks

theorem Spares.refl (d : Data) : Spares d d := ⟨rfl,rfl,rfl,rfl⟩

theorem Spares.trans (one : Spares d d') (two : Spares d' d'') : Spares d d'' :=
  ⟨two.challenges.trans one.challenges,two.challengeIds.trans one.challengeIds,two.tokenHashes.trans one.tokenHashes,
    two.marks.trans one.marks⟩

theorem Spares.moves (spares : Spares d d') (valid : Valid d) (locks : List Lock) : Moves locks d d' := by
  obtain ⟨challenges,challengeIds,tokenHashes,marks⟩ := spares
  refine ⟨⟨?_,?_,?_,?_⟩,?_,?_⟩
  · rw [challenges]
    exact valid.challenges
  · rw [challenges,challengeIds]
    exact valid.challengeIds
  · rw [marks]
    exact valid.invitations
  · rw [marks,tokenHashes]
    exact valid.tokenHashes
  · intro grant spent
    cases grant with
    | challenge challengeId => simpa only [Spent,challenges,challengeIds] using spent
    | invitation tokenHash => simpa only [Spent,marks,tokenHashes] using spent
  · intro tokenHash consumed _ member
    rw [marks]
    exact member

structure Uses (tokenHash : String) (d d' : Data) : Prop where
  challenges : d'.challenges = d.challenges
  challengeIds : d'.challengeIds = d.challengeIds
  tokenHashes : d'.tokenHashes = d.tokenHashes
  marks : d'.marks = Table.update (fun row : String × Bool => row.1 = tokenHash) (fun row => (row.1,true)) d.marks

theorem Uses.moves (uses : Uses tokenHash d d') (valid : Valid d) (held : .invitation tokenHash ∈ locks) : Moves locks d d' := by
  obtain ⟨challenges,challengeIds,tokenHashes,marks⟩ := uses
  have names : d'.marks.map Prod.fst = d.marks.map Prod.fst := by
    rw [marks]
    exact Table.column_update (fun _ => rfl)
  refine ⟨⟨?_,?_,?_,?_⟩,?_,?_⟩
  · rw [challenges]
    exact valid.challenges
  · rw [challenges,challengeIds]
    exact valid.challengeIds
  · rw [names]
    exact valid.invitations
  · rw [names,tokenHashes]
    exact valid.tokenHashes
  · intro grant spent
    cases grant with
    | challenge challengeId => simpa only [Spent,challenges,challengeIds] using spent
    | invitation other =>
      refine ⟨tokenHashes ▸ spent.1,?_⟩
      rw [marks]
      intro member
      obtain ⟨old,present,same⟩ := Table.mem_update.mp member
      split at same
      · cases same
      · exact spent.2 (same ▸ present)
  · intro other consumed free member
    rw [marks]
    refine Table.mem_update.mpr ⟨_,member,if_neg ?_⟩
    rintro rfl
    exact free held

theorem Uses.spent (uses : Uses tokenHash d d') (valid : Valid d) (usable : Usable d (.invitation tokenHash)) :
    Spent d' (.invitation tokenHash) := by
  refine ⟨?_,?_⟩
  · rw [uses.tokenHashes]
    exact valid.tokenHashes tokenHash (List.mem_map_of_mem usable)
  · rw [uses.marks]
    intro member
    obtain ⟨old,present,same⟩ := Table.mem_update.mp member
    split at same
    · cases same
    · rename_i other
      exact other (congrArg Prod.fst same)

theorem consume_moves (valid : Valid d) (challengeId now : Nat) (locks : List Lock) : Moves locks d (consume d challengeId now) := by
  have ids : (consume d challengeId now).challenges.map (·.challengeId) = d.challenges.map (·.challengeId) :=
    Table.column_update (fun _ => rfl)
  refine ⟨⟨?_,?_,valid.invitations,valid.tokenHashes⟩,?_,?_⟩
  · rw [ids]
    exact valid.challenges
  · rw [ids]
    exact valid.challengeIds
  · intro grant spent
    cases grant with
    | challenge other =>
      refine ⟨spent.1,?_⟩
      intro row member named
      obtain ⟨old,present,rfl⟩ := Table.mem_update.mp member
      split
      · simp
      · rename_i missed
        rw [if_neg missed] at named
        exact spent.2 old present named
    | invitation tokenHash => exact spent
  · intro tokenHash consumed _ member
    exact member

theorem consume_spent (valid : Valid d) (usable : Usable d (.challenge challengeId)) (now : Nat) :
    Spent (consume d challengeId now) (.challenge challengeId) := by
  obtain ⟨row,member,named,-⟩ := usable
  refine ⟨valid.challengeIds challengeId (named ▸ List.mem_map_of_mem member),?_⟩
  intro later present same
  obtain ⟨old,_,rfl⟩ := Table.mem_update.mp present
  split
  · simp
  · rename_i missed
    rw [if_neg missed] at same
    intro unused
    exact missed ⟨same,unused⟩

theorem insertChallenge_moves (valid : Valid d) (fresh : row.challengeId ∉ d.challengeIds) (locks : List Lock) :
    Moves locks d (insertChallenge d row) := by
  refine ⟨⟨?_,?_,valid.invitations,valid.tokenHashes⟩,?_,?_⟩
  · show ((d.challenges ++ [row]).map (·.challengeId)).Nodup
    rw [List.map_append]
    exact Table.nodup_snoc valid.challenges fun taken => fresh (valid.challengeIds _ taken)
  · show ∀ id ∈ (d.challenges ++ [row]).map (·.challengeId), id ∈ row.challengeId :: d.challengeIds
    intro id member
    rw [List.map_append,List.mem_append] at member
    rcases member with old | new
    · exact List.mem_cons_of_mem _ (valid.challengeIds id old)
    · rw [List.mem_singleton.mp new]
      exact List.mem_cons_self ..
  · intro grant spent
    cases grant with
    | challenge challengeId =>
      refine ⟨List.mem_cons_of_mem _ spent.1,?_⟩
      intro other member named
      rcases List.mem_append.mp member with old | new
      · exact spent.2 other old named
      · rw [List.mem_singleton.mp new] at named
        exact absurd (named ▸ spent.1) fresh
    | invitation tokenHash => exact spent
  · intro tokenHash consumed _ member
    exact member

theorem purge_moves (valid : Valid d) (now hourAgo : Nat) (locks : List Lock) : Moves locks d (purge d now hourAgo) := by
  have fewer : (purge d now hourAgo).challenges.Sublist d.challenges := List.filter_sublist
  refine ⟨⟨?_,?_,valid.invitations,valid.tokenHashes⟩,?_,?_⟩
  · exact valid.challenges.sublist (fewer.map _)
  · intro id member
    exact valid.challengeIds id ((fewer.map _).subset member)
  · intro grant spent
    cases grant with
    | challenge challengeId => exact ⟨spent.1,fun row member => spent.2 row (fewer.subset member)⟩
    | invitation tokenHash => exact spent
  · intro tokenHash consumed _ member
    exact member

theorem insertInvitation_moves (valid : Valid d) (fresh : row.tokenHash ∉ d.tokenHashes) (locks : List Lock) :
    Moves locks d (insertInvitation d row) := by
  have marks : (insertInvitation d row).marks = d.marks ++ [(row.tokenHash,false)] := List.map_append
  refine ⟨⟨valid.challenges,valid.challengeIds,?_,?_⟩,?_,?_⟩
  · rw [marks,List.map_append]
    exact Table.nodup_snoc valid.invitations fun taken => fresh (valid.tokenHashes _ taken)
  · show ∀ hash ∈ (insertInvitation d row).marks.map Prod.fst, hash ∈ row.tokenHash :: d.tokenHashes
    intro hash member
    rw [marks,List.map_append,List.mem_append] at member
    rcases member with old | new
    · exact List.mem_cons_of_mem _ (valid.tokenHashes hash old)
    · rw [List.mem_singleton.mp new]
      exact List.mem_cons_self ..
  · intro grant spent
    cases grant with
    | challenge challengeId => exact spent
    | invitation tokenHash =>
      refine ⟨List.mem_cons_of_mem _ spent.1,?_⟩
      rw [marks]
      intro member
      rcases List.mem_append.mp member with old | new
      · exact spent.2 old
      · cases List.mem_singleton.mp new
        exact fresh spent.1
  · intro tokenHash consumed _ member
    rw [marks]
    exact List.mem_append_left _ member

theorem Uses.before (spares : Spares d d') (uses : Uses tokenHash d' d'') : Uses tokenHash d d'' :=
  ⟨uses.challenges.trans spares.challenges,uses.challengeIds.trans spares.challengeIds,
    uses.tokenHashes.trans spares.tokenHashes,uses.marks.trans (by rw [spares.marks])⟩

theorem Uses.after (uses : Uses tokenHash d d') (spares : Spares d' d'') : Uses tokenHash d d'' :=
  ⟨spares.challenges.trans uses.challenges,spares.challengeIds.trans uses.challengeIds,
    spares.tokenHashes.trans uses.tokenHashes,spares.marks.trans uses.marks⟩

theorem consumeInvitation_uses (d : Data) (tokenHash mailboxPk : String) :
    Uses tokenHash d (consumeInvitation d tokenHash mailboxPk) := by
  refine ⟨rfl,rfl,rfl,?_⟩
  simp only [Data.marks,consumeInvitation,Table.update,List.map_map]
  apply List.map_congr_left
  intro row _
  simp only [Function.comp_apply]
  by_cases hit : row.tokenHash = tokenHash
  · have marked : (mark row).1 = tokenHash := hit
    rw [if_pos hit,if_pos marked]
    rfl
  · have other : ¬(mark row).1 = tokenHash := hit
    rw [if_neg hit,if_neg other]

theorem expireInvitations_spares (d : Data) (tokenHashes : List String) (now : Nat) :
    Spares d (expireInvitations d tokenHashes now) :=
  ⟨rfl,rfl,rfl,Table.column_update (fun _ => rfl)⟩

def Point.used : Point → Bool
  | .redeemed _ => true
  | .done reply => reply.status = 200
  | _ => false

def KnowsClaim (tokenHash : String) (locks : List Lock) (write : Data → Data) (d : Data) : Point → Prop
  | .start | .locking _ => write = id
  | .locked _ row => row.tokenHash = tokenHash ∧ .invitation tokenHash ∈ locks ∧ (∀ d, Spares d (write d)) ∧
      (tokenHash,row.consumed) ∈ d.marks
  | .owned _ row _ _ | .activated row _ _ | .keyed row _ _ => row.tokenHash = tokenHash ∧ .invitation tokenHash ∈ locks ∧
      (∀ d, Spares d (write d)) ∧ Usable d (.invitation tokenHash)
  | .spent _ | .signedIn => .invitation tokenHash ∈ locks ∧ (∀ d, Uses tokenHash d (write d)) ∧ Usable d (.invitation tokenHash)
  | _ => True

def KnowsRequest (rt : Runtime) (locks : List Lock) (write : Data → Data) (d : Data) (point : Point) : Request → Prop
  | .invitationClaim body => KnowsClaim (keyPart rt body).tokenHash locks write d point
  | .deleteMailbox _ => ∀ d, Spares d (write d)
  | _ => write = id

structure Knows (rt : Runtime) (session : Session) (d : Data) : Prop where
  spent : ∀ grant, session.stage.request.grant rt = some grant → session.stage.point.used = true → Spent d grant
  own : KnowsRequest rt session.locks session.write d session.stage.point session.stage.request

theorem KnowsClaim.keeps (knows : KnowsClaim tokenHash locks write d point) (moves : Moves held d d')
    (apart : .invitation tokenHash ∈ locks → .invitation tokenHash ∉ held) : KnowsClaim tokenHash locks write d' point := by
  cases point with
  | start | locking => exact knows
  | locked hash row =>
    obtain ⟨named,locked,spares,member⟩ := knows
    exact ⟨named,locked,spares,moves.kept tokenHash row.consumed (apart locked) member⟩
  | owned | activated | keyed =>
    obtain ⟨named,locked,spares,usable⟩ := knows
    exact ⟨named,locked,spares,moves.kept tokenHash false (apart locked) usable⟩
  | spent | signedIn =>
    obtain ⟨locked,uses,usable⟩ := knows
    exact ⟨locked,uses,moves.kept tokenHash false (apart locked) usable⟩
  | _ => trivial

theorem Knows.keeps (knows : Knows rt other d) (moves : Moves locks d d') (apart : Compatible conflict locks other.locks) :
    Knows rt other d' := by
  refine ⟨fun grant named used => moves.spent grant (knows.spent grant named used),?_⟩
  have own := knows.own
  cases which : other.stage.request with
  | invitationClaim body =>
    rw [which] at own
    apply KnowsClaim.keeps own moves
    intro mine theirs
    have free := apart _ theirs _ mine
    simp [conflict] at free
  | _ =>
    rw [which] at own
    exact own

-- A request that ends without a grant leaves nothing to know.
theorem Knows.refused (request : Request) (began : Nat) (d : Data) (other : status ≠ 200) :
    Knows rt ⟨⟨request,.done ⟨status,message⟩⟩,began,[],id⟩ d := by
  refine ⟨?_,?_⟩
  · intro grant _ used
    exact absurd (of_decide_eq_true used) other
  · cases request with
    | invitationClaim => trivial
    | deleteMailbox => exact Spares.refl
    | _ => rfl

theorem Knows.other {request : Request} (none : request.grant rt = Option.none) (own : KnowsRequest rt locks write d point request) :
    Knows rt ⟨⟨request,point⟩,began,locks,write⟩ d := by
  refine ⟨?_,own⟩
  intro grant named
  rw [none] at named
  cases named

structure Advances (rt : Runtime) (clock : Nat) (session : Session) (d : Data) (action : Deed) : Prop where
  moves : Moves (session.locks ++ action.locks) d (action.data session d)
  knows : Knows rt (action.session clock session) (action.data session d)

theorem verify_advances (valid : Valid d)
    (knows : Knows rt ⟨⟨.recoveryVerify challengeID signature,point⟩,began,locks,write⟩ d)
    (acts : VerifyActs (.recoveryVerify challengeID signature) challengeID clock (write d) point action) :
    Advances rt clock ⟨⟨.recoveryVerify challengeID signature,point⟩,began,locks,write⟩ d action := by
  have plain : write = id := knows.own
  subst plain
  have names : ∀ challengeId grant, Uuid.read (trimSpace challengeID) = some challengeId →
      (Request.recoveryVerify challengeID signature).grant rt = some grant → grant = .challenge challengeId := by
    intro challengeId grant named granted
    simp only [Request.grant,named,Option.map_some,Option.some_inj] at granted
    exact granted.symm
  cases acts with
  | refused other => exact ⟨(Spares.refl d).moves valid _,Knows.refused _ _ _ other⟩
  | read named found =>
    refine ⟨(Spares.refl d).moves valid _,?_,rfl⟩
    intro grant _ used
    cases used
  | consumed named unused =>
    refine ⟨consume_moves valid _ _ _,?_,rfl⟩
    intro grant granted _
    rw [names _ grant named granted]
    exact consume_spent valid unused clock
  | restored =>
    rename_i userId row
    have spares : Spares d (insertSession d row) := ⟨rfl,rfl,rfl,rfl⟩
    have moves := spares.moves valid (locks ++ [])
    refine ⟨moves,?_,rfl⟩
    intro grant granted _
    exact moves.spent grant (knows.spent grant granted rfl)

theorem claim_advances (valid : Valid d) (knows : Knows rt ⟨⟨.invitationClaim body,point⟩,began,locks,write⟩ d)
    (acts : ClaimActs rt (.invitationClaim body) body clock (write d) point action) :
    Advances rt clock ⟨⟨.invitationClaim body,point⟩,began,locks,write⟩ d action := by
  have own : KnowsClaim (keyPart rt body).tokenHash locks write d point := knows.own
  have still : Moves (locks ++ action.locks) d d := (Spares.refl d).moves valid _
  have unused : ∀ {point began locks write}, point.used = false → KnowsClaim (keyPart rt body).tokenHash locks write d point →
      Knows rt ⟨⟨.invitationClaim body,point⟩,began,locks,write⟩ d := by
    intro point began locks write before own
    refine ⟨?_,own⟩
    intro grant _ used
    exact absurd used (by simp [before])
  cases acts with
  | refused other => exact ⟨still,Knows.refused _ _ _ other⟩
  | opened hash =>
    exact ⟨still,unused rfl own⟩
  | read hash found =>
    rename_i row
    have named : row.tokenHash = (keyPart rt body).tokenHash := by simpa using List.find?_some found
    have plain : write = id := own
    subst plain
    have member : (row.tokenHash,row.consumed) ∈ d.marks := List.mem_map_of_mem (List.mem_of_find?_eq_some found)
    refine ⟨still,unused rfl ⟨named,?_,Spares.refl,?_⟩⟩
    · rw [← named]
      exact List.mem_append_right _ (List.mem_singleton_self _)
    · rw [← named]
      exact member
  | admitted hash free fresh =>
    obtain ⟨named,held,spares,member⟩ := own
    rw [free] at member
    exact ⟨still,unused rfl ⟨named,List.mem_append_left _ held,spares,member⟩⟩
  | activated hash set =>
    obtain ⟨named,held,spares,usable⟩ := own
    refine ⟨still,unused rfl ⟨named,List.mem_append_left _ held,?_,usable⟩⟩
    intro d
    exact (spares d).trans ⟨rfl,rfl,rfl,rfl⟩
  | keyed set =>
    obtain ⟨named,held,spares,usable⟩ := own
    refine ⟨still,unused rfl ⟨named,List.mem_append_left _ held,?_,usable⟩⟩
    intro d
    exact (spares d).trans ⟨rfl,rfl,rfl,rfl⟩
  | consumed =>
    rename_i row mailboxPk userId
    obtain ⟨named,held,spares,usable⟩ := own
    refine ⟨still,unused rfl ⟨List.mem_append_left _ held,?_,usable⟩⟩
    intro d
    have uses : Uses (keyPart rt body).tokenHash (write d) (consumeInvitation (write d) row.tokenHash mailboxPk) := by
      rw [← named]
      exact consumeInvitation_uses (write d) row.tokenHash mailboxPk
    exact uses.before (spares d)
  | inserted row =>
    obtain ⟨held,uses,usable⟩ := own
    refine ⟨still,unused rfl ⟨List.mem_append_left _ held,?_,usable⟩⟩
    intro d
    exact (uses d).after ⟨rfl,rfl,rfl,rfl⟩
  | committed =>
    obtain ⟨held,uses,usable⟩ := own
    refine ⟨(uses d).moves valid (List.mem_append_left _ held),?_,trivial⟩
    intro grant granted _
    cases granted
    exact (uses d).spent valid usable

theorem step_advances (valid : Valid d) (knows : Knows rt session d)
    (acts : program rt session.stage session.began clock (session.write d) draw = some action) : Advances rt clock session d action := by
  obtain ⟨⟨request,point⟩,began,locks,write⟩ := session
  cases request with
  | recoveryVerify challengeID signature => exact verify_advances valid knows (recoveryVerify_acts acts)
  | invitationClaim body => exact claim_advances valid knows (invitationClaim_acts acts)
  | issueChallenge userId =>
    have plain : write = id := knows.own
    subst plain
    simp only [program,issueChallenge] at acts
    split at acts
    · split at acts
      · cases acts
        exact ⟨(Spares.refl d).moves valid _,Knows.refused _ _ _ (by decide)⟩
      · rename_i drawn
        cases acts
        exact ⟨insertChallenge_moves valid (not_or.mp drawn).2 _,Knows.other rfl rfl⟩
    · cases acts
  | purgeChallenges hourAgo =>
    have plain : write = id := knows.own
    subst plain
    simp only [program] at acts
    split at acts
    · cases acts
      exact ⟨purge_moves valid _ _ _,Knows.other rfl rfl⟩
    · cases acts
  | mailboxInvite row =>
    have plain : write = id := knows.own
    subst plain
    simp only [program,mailboxInvite] at acts
    split at acts
    · split at acts
      · cases acts
        exact ⟨(Spares.refl d).moves valid _,Knows.refused _ _ _ (by decide)⟩
      · rename_i drawn
        cases acts
        exact ⟨insertInvitation_moves valid (not_or.mp drawn).2 _,Knows.other rfl rfl⟩
    · cases acts
  | deleteMailbox mailboxId =>
    have spares : ∀ d, Spares d (write d) := knows.own
    simp only [program,deleteMailbox] at acts
    split at acts
    · cases acts
      exact ⟨(Spares.refl d).moves valid _,Knows.other rfl spares⟩
    · cases acts
      refine ⟨(Spares.refl d).moves valid _,Knows.other rfl ?_⟩
      intro d
      exact (spares d).trans (expireInvitations_spares _ _ _)
    · split at acts
      · cases acts
        exact ⟨(Spares.refl d).moves valid _,Knows.refused _ _ _ (by decide)⟩
      · cases acts
        exact ⟨(spares d).moves valid _,Knows.other rfl Spares.refl⟩
    · cases acts
  | write users mailboxes sessions =>
    have plain : write = id := knows.own
    subst plain
    simp only [program] at acts
    split at acts
    · cases acts
      have spares : Spares d (overwrite d users mailboxes sessions) := ⟨rfl,rfl,rfl,rfl⟩
      exact ⟨spares.moves valid _,Knows.other rfl rfl⟩
    · cases acts

theorem conflict_symm (l h : Lock) : conflict l h = conflict h l := by
  simp [conflict,eq_comm]

theorem Knows.start (rt : Runtime) (request : Request) (clock : Nat) (d : Data) : Knows rt (.start (entry request) clock) d := by
  refine ⟨?_,?_⟩
  · intro grant _ used
    cases used
  · cases request with
    | deleteMailbox => exact Spares.refl
    | _ => rfl

abbrev Sound (rt : Runtime) (s : State) : Prop := Transactions.Sound conflict Valid (Knows rt) s

theorem sound_step (sound : Sound rt s) (taken : advance rt s e = some t) : Sound rt t := by
  refine sound.advance conflict_symm ?_ ?_ taken
  · intro request _
    exact Knows.start rt request s.clock s.data
  · intro k draw session action _ found acts
    have advances := step_advances sound.inv (sound.knows session (List.mem_of_getElem? found)) acts
    exact ⟨advances.moves.valid,advances.knows,fun other _ knows apart => knows.keeps advances.moves apart⟩

theorem sound_start (rt : Runtime) (clock : Nat) : Sound rt (start clock) := by
  refine ⟨⟨by simp [start],by simp [start],by simp [start,Data.marks],by simp [start,Data.marks]⟩,by simp [start],?_⟩
  intro j k one two found
  simp [start] at found

def Holds (rt : Runtime) (grant : Grant) (stage : Stage) : Prop := stage.request.grant rt = some grant ∧ stage.point.used = true

theorem request_kept (acts : program rt session.stage session.began clock (session.write d) draw = some action) :
    (action.session clock session).stage.request = session.stage.request := by
  obtain ⟨⟨request,point⟩,began,locks,write⟩ := session
  cases request with
  | recoveryVerify challengeID signature => cases recoveryVerify_acts acts <;> rfl
  | invitationClaim body => cases invitationClaim_acts acts <;> rfl
  | issueChallenge | mailboxInvite =>
    simp only [program,issueChallenge,mailboxInvite,refuse] at acts
    split_ifs at acts <;> cases acts <;> rfl
  | purgeChallenges | write =>
    simp only [program] at acts
    split_ifs at acts
    cases acts
    rfl
  | deleteMailbox mailboxId =>
    simp only [program,deleteMailbox,refuse] at acts
    split at acts
    · cases acts
      rfl
    · cases acts
      rfl
    · split_ifs at acts <;> cases acts <;> rfl
    · cases acts

theorem holds_usable (knows : Knows rt session d)
    (acts : program rt session.stage session.began clock (session.write d) draw = some action)
    (holds : Holds rt grant (action.session clock session).stage) : Holds rt grant session.stage ∨ Usable d grant := by
  obtain ⟨granted,used⟩ := holds
  rw [request_kept acts] at granted
  obtain ⟨⟨request,point⟩,began,locks,write⟩ := session
  cases request with
  | recoveryVerify challengeID signature =>
    have plain : write = id := knows.own
    subst plain
    cases recoveryVerify_acts acts with
    | refused other => exact absurd (of_decide_eq_true used) other
    | read named found => cases used
    | consumed named unused =>
      have granted : (Uuid.read (trimSpace challengeID)).map Grant.challenge = some grant := granted
      rw [named] at granted
      cases granted
      exact .inr unused
    | restored => exact .inl ⟨granted,rfl⟩
  | invitationClaim body =>
    have own : KnowsClaim (keyPart rt body).tokenHash locks write d point := knows.own
    cases invitationClaim_acts acts with
    | refused other => exact absurd (of_decide_eq_true used) other
    | committed =>
      cases granted
      exact .inr own.2.2
    | _ => cases used
  | _ => cases granted

theorem one_holder_step (grant : Grant) (sound : Sound rt s) (one : OneHolder (Holds rt grant) s)
    (taken : advance rt s e = some t) : OneHolder (Holds rt grant) t := by
  refine one.advance ?_ ?_ taken
  · intro request holds
    cases holds.2
  · intro k draw session action _ found acts holds
    rcases holds_usable (sound.knows session (List.mem_of_getElem? found)) acts holds with before | usable
    · exact .inl before
    · right
      intro other member held
      exact usable.not_spent ((sound.knows other member).spent grant held.1 held.2)

def Data.accounts (d : Data) : List User × List Mailbox × List LoginSession := (d.users,d.mailboxes,d.sessions)

def State.succeeded (s : State) (k : Nat) : Bool := s.sessions[k]?.any fun session => session.stage.point = .done ⟨200,""⟩

theorem accounts_kept (knows : Knows rt session d) (grants : session.stage.request.grant rt ≠ none)
    (acts : program rt session.stage session.began clock (session.write d) draw = some action) :
    (action.data session d).accounts = d.accounts ∨ (action.session clock session).stage.point = .done ⟨200,""⟩ := by
  obtain ⟨⟨request,point⟩,began,locks,write⟩ := session
  cases request with
  | recoveryVerify challengeID signature =>
    cases recoveryVerify_acts acts with
    | restored => exact .inr rfl
    | _ => exact .inl rfl
  | invitationClaim body =>
    cases invitationClaim_acts acts with
    | committed => exact .inr rfl
    | _ => exact .inl rfl
  | _ => exact absurd rfl grants

theorem done_stays {s t : State} {session : Session} {k : Nat} (taken : advance rt s e = some t) (found : s.sessions[k]? = some session)
    (done : session.stage.point = .done reply) : t.sessions[k]? = some session := by
  rcases advance_session taken found with still | ⟨draw,action,-,acts,-⟩
  · exact still
  · obtain ⟨⟨request,point⟩,began,locks,write⟩ := session
    obtain rfl : point = .done reply := done
    cases request <;> simp [program,recoveryVerifyHandler,invitationClaimHandler,deleteMailbox] at acts

theorem done_forever {s t : State} {session : Session} {k : Nat} (run : Runs (advance rt) s trace t) (found : s.sessions[k]? = some session)
    (done : session.stage.point = .done reply) : t.sessions[k]? = some session := by
  induction run with
  | nil => exact found
  | step _ taken ih => exact done_stays taken ih done

-- The row a request is about to read has expired.
def ReadsExpired (rt : Runtime) (s : State) (k : Nat) : Prop :=
  ∃ session, s.sessions[k]? = some session ∧
    match session.stage.request,session.stage.point with
    | .recoveryVerify challengeID _,.start =>
      ∃ row ∈ s.data.challenges, Uuid.read (trimSpace challengeID) = some row.challengeId ∧ row.expiresAt ≤ s.clock
    | .invitationClaim body,.locking _ =>
      ∃ row ∈ s.data.invitations, row.tokenHash = (keyPart rt body).tokenHash ∧ row.expiresAt < s.clock
    | _,_ => False

-- Where such a request can get to.
def Doomed (clock : Nat) (stage : Stage) : Prop :=
  (∃ reply : Reply, stage.point = .done reply ∧ reply.status ≠ 200) ∨
  ∃ body hash row, stage = ⟨.invitationClaim body,.locked hash row⟩ ∧ row.expiresAt < clock

theorem doomed_read (sound : Sound rt s) (expired : ReadsExpired rt s k) (taken : advance rt s (.step k draw) = some t) :
    ∃ session : Session, t.sessions[k]? = some session ∧ Doomed t.clock session.stage := by
  obtain ⟨session,found,expired⟩ := expired
  have knows := sound.knows session (List.mem_of_getElem? found)
  obtain ⟨action,acts,after,moved⟩ := advance_step taken found
  refine ⟨_,moved,?_⟩
  have clock : t.clock = s.clock + 1 := by rw [after]
  obtain ⟨⟨request,point⟩,began,locks,write⟩ := session
  cases request with
  | recoveryVerify challengeID signature =>
    have plain : write = id := knows.own
    subst plain
    cases recoveryVerify_acts acts with
    | refused other => exact .inl ⟨_,rfl,other⟩
    | read named opened =>
      rename_i challengeId row userId
      obtain ⟨late,member,same,passed⟩ := expired
      have hit := List.find?_some opened
      simp only [decide_eq_true_eq] at hit
      have equal : row = late := by
        apply Table.unique_row sound.inv.challenges (List.mem_of_find?_eq_some opened) member
        rw [hit.1]
        exact Option.some.inj (named.symm.trans same)
      subst equal
      exact absurd hit.2.2 (by omega)
    | _ => exact expired.elim
  | invitationClaim body =>
    cases invitationClaim_acts acts with
    | refused other => exact .inl ⟨_,rfl,other⟩
    | read hash look =>
      rename_i row
      have own : write = id := knows.own
      subst own
      obtain ⟨late,member,same,passed⟩ := expired
      have named : row.tokenHash = (keyPart rt body).tokenHash := by simpa using List.find?_some look
      have tokens : (s.data.invitations.map (·.tokenHash)).Nodup := by
        have marks := sound.inv.invitations
        rw [Data.marks,List.map_map] at marks
        exact marks
      have equal : row = late := Table.unique_row tokens (List.mem_of_find?_eq_some look) member (named.trans same.symm)
      subst equal
      exact .inr ⟨body,hash,row,rfl,by omega⟩
    | _ => exact expired.elim
  | _ => exact expired.elim

theorem doomed_stays {s t : State} {session : Session} {k : Nat} (taken : advance rt s e = some t) (found : s.sessions[k]? = some session)
    (doomed : Doomed s.clock session.stage) : ∃ session : Session, t.sessions[k]? = some session ∧ Doomed t.clock session.stage := by
  have clock := advance_clock taken
  rcases doomed with ⟨reply,done,other⟩ | ⟨body,hash,row,stage,late⟩
  · exact ⟨session,done_stays taken found done,.inl ⟨reply,done,other⟩⟩
  · rcases advance_session taken found with still | ⟨draw,action,-,acts,moved⟩
    · exact ⟨session,still,.inr ⟨body,hash,row,stage,by omega⟩⟩
    · refine ⟨_,moved,?_⟩
      obtain ⟨⟨request,point⟩,began,locks,write⟩ := session
      cases stage
      have claims : invitationClaimHandler rt (.invitationClaim body) body (.locked hash row) s.clock (write s.data) draw =
        some action := acts
      cases invitationClaim_acts claims with
      | refused other => exact .inl ⟨_,rfl,other⟩
      | admitted hash unused fresh => exact absurd late fresh

theorem doomed_forever {s t : State} {session : Session} {k : Nat} (run : Runs (advance rt) s trace t) (found : s.sessions[k]? = some session)
    (doomed : Doomed s.clock session.stage) : ∃ session : Session, t.sessions[k]? = some session ∧ Doomed t.clock session.stage := by
  induction run with
  | nil => exact ⟨session,found,doomed⟩
  | step _ taken ih =>
    obtain ⟨later,look,still⟩ := ih
    exact doomed_stays taken look still

theorem sound_run (run : Runs (advance rt) (start clock) trace t) : Sound rt t := by
  induction run with
  | nil => exact sound_start rt clock
  | step _ taken ih => exact sound_step ih taken

theorem one_holder (run : Runs (advance rt) (start clock) trace t) (grant : Grant) : OneHolder (Holds rt grant) t := by
  induction run with
  | nil =>
    intro j k one two found
    simp [start] at found
  | step earlier taken ih => exact one_holder_step grant (sound_run earlier) ih taken

theorem grants_used_once (run : Runs (advance rt) (start clock) trace t) :
    (∀ j k one two grant, t.sessions[j]? = some one → t.sessions[k]? = some two →
      one.stage.request.grant rt = some grant → two.stage.request.grant rt = some grant →
      t.succeeded j = true → t.succeeded k = true → j = k) ∧
    (∀ k s draw, (s,.step k draw) ∈ trace → ReadsExpired rt s k → t.succeeded k = false) ∧
    ∀ k s draw session s', (s,.step k draw) ∈ trace → s.sessions[k]? = some session → session.stage.request.grant rt ≠ none →
      advance rt s (.step k draw) = some s' → t.succeeded k = false → s'.data.accounts = s.data.accounts := by
  refine ⟨?_,?_,?_⟩
  · intro j k one two grant look look' granted granted' mine theirs
    have holds : ∀ {i : Nat} {session : Session}, t.sessions[i]? = some session → session.stage.request.grant rt = some grant →
        t.succeeded i = true → Holds rt grant session.stage := by
      intro i session look granted succeeded
      refine ⟨granted,?_⟩
      simp only [State.succeeded,look,Option.any_some,decide_eq_true_eq] at succeeded
      rw [succeeded]
      rfl
    exact one_holder run grant j k one two look look' (holds look granted mine) (holds look' granted' theirs)
  · intro k s draw member expired
    obtain ⟨earlier,s',later,-,before,taken,rest⟩ := run.visit member
    obtain ⟨session,found,doomed⟩ := doomed_read (sound_run before) expired taken
    obtain ⟨last,look,doomed⟩ := doomed_forever rest found doomed
    rw [State.succeeded,look]
    rcases doomed with ⟨reply,done,other⟩ | ⟨body,hash,row,stage,-⟩
    · simp only [Option.any_some,done,decide_eq_false_iff_not,Point.done.injEq]
      rintro rfl
      exact other rfl
    · simp [stage]
  · intro k s draw session s' member found grants taken lost
    obtain ⟨earlier,after,later,-,before,step,rest⟩ := run.visit member
    cases Option.some.inj (step.symm.trans taken)
    obtain ⟨action,acts,whole,moved⟩ := advance_step taken found
    have knows := (sound_run before).knows session (List.mem_of_getElem? found)
    rcases accounts_kept knows grants acts with same | done
    · rw [whole]
      exact same
    · have last := done_forever rest moved done
      simp [State.succeeded,last,done] at lost

section
def runtime : Runtime :=
  {Auth.plainRuntime with
    uuidParse:=Uuid.read
    ed25519Verify:=fun _ message signature => signature = message}

def aliceTables : Request :=
  .write [{Auth.alice with recoveryAuthPk:=some [1]}] [⟨10,1,some 1,.privateMode,true,false,none,none,1,none,none,none,none⟩] []

def verifyAlice : Request := .recoveryVerify (Uuid.text 9) (Auth.recoveryChallengeMessage (Uuid.text 9))

def claimAlice : Request := .invitationClaim ⟨"token","a new password","","","wrapped","key","","","",""⟩

def smooth (token : String) : Draw := ⟨true,false,9,"salt",token,1000⟩

def racing : List Event :=
  let challenged : List Event :=
    [.arrive aliceTables,.step 0 (smooth ""),.arrive (.issueChallenge 1),.step 1 (smooth ""),.arrive verifyAlice,.arrive verifyAlice]
  let invited : List Event :=
    [.arrive (.mailboxInvite ⟨"token",10,none,none,none,1000,false⟩),.step 4 (smooth ""),.arrive claimAlice,.arrive claimAlice]
  challenged ++ [2,3,2,3,2].map (fun k => Event.step k (smooth "first")) ++ invited ++
    [5,6,5,5,5,5,5,5,5,6,6].map fun k => Event.step k (smooth "second")

theorem grants_used_once_raced : ∃ trace t, Runs (advance runtime) (start 0) trace t ∧
    (t.succeeded 2 = true ∧ t.succeeded 5 = true) ∧
    ∀ j k one two grant, t.sessions[j]? = some one → t.sessions[k]? = some two →
      one.stage.request.grant runtime = some grant → two.stage.request.grant runtime = some grant →
      t.succeeded j = true → t.succeeded k = true → j = k := by
  have reached : ∃ trace t, Runs (advance runtime) (start 0) trace t ∧ t.succeeded 2 = true ∧ t.succeeded 5 = true :=
    follow_ends racing (by decide +kernel)
  obtain ⟨trace,t,run,won⟩ := reached
  exact ⟨trace,t,run,won,(grants_used_once run).1⟩

end

end ByosMail.OneTimeGrants
