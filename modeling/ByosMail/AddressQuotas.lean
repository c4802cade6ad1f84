import ByosMail.AddressRuns

-- The numbers of active mailboxes and of domains against the limits of the plan and of the
-- capacity, over every interleaving of the handlers that count and insert.
namespace ByosMail.AddressBook
open Machine Transactions

-- The numbers of later do not rise above the limits of o: of its plan, and for domains also
-- the limit the admin API goes by.
structure Within (d later : Data) (o : Organization) : Prop where
  mailboxes : later.activeMailboxes o.id ≤ max (d.activeMailboxes o.id) (spec o.plan).mailboxLimit
  planDomains : later.domainCount o.id ≤ max (d.domainCount o.id) (spec o.plan).domainLimit
  capDomains : (later.domainCount o.id : Int) ≤ max (d.domainCount o.id : Int) o.domainCap

-- Over every part of a run through which an organisation stays as it is.
def Bounded (rt : Runtime) (origin : State) (trace : List (State × Event)) : Prop :=
  ∀ earlier s later t rest, trace = earlier ++ (later ++ rest) → Runs (advance rt) origin earlier s →
    Runs (advance rt) s later t → ∀ o ∈ t.data.organizations, (∀ p ∈ later, o ∈ p.1.data.organizations) →
    Within s.data t.data o

def own (k : Nat) : Event → Bool
  | .step j _ => j = k
  | .arrive _ => false

-- What the handler of a request has read of its organisation, and the rows that others have
-- committed since it counted.
structure Sight where
  limit : Int
  used : Nat
  added : Nat
  ended : Nat
  deriving DecidableEq

def Sight.reads (seen : Sight) (d : Data) : Stage → Sight
  | ⟨.invite orgId _,.opened _⟩ => ⟨0,d.activeMailboxes orgId,0,0⟩
  | ⟨.adminDomain orgId _,.opened _⟩ =>
    {seen with limit:=((d.organizations.find? (·.id = orgId)).map (·.domainCap)).getD 0}
  | ⟨.adminDomain orgId _,.capped _⟩ => {seen with used:=d.domainCount orgId,added:=0}
  | _ => seen

def Sight.misses (seen : Sight) (d : Data) (c : Change) : Request → Sight
  | .invite orgId _ =>
    {seen with added:=seen.added + c.mailboxes.countP (·.orgId = orgId),ended:=seen.ended + c.ends d orgId}
  | .adminDomain orgId _ => {seen with added:=seen.added + c.domains.countP (·.orgId = orgId)}
  | _ => seen

section
variable (rt : Runtime)

def look (k : Nat) (seen : Sight) (p : State × Event) : Sight :=
  match p.1.sessions[k]? with
  | none => seen
  | some session =>
    if own k p.2 then seen.reads p.1.data session.stage
    else (changing rt p.1 p.2).elim seen fun c => seen.misses p.1.data c session.stage.request

def sight (k : Nat) (trace : List (State × Event)) : Sight := trace.foldl (look rt k) ⟨0,0,0,0⟩

-- Nothing has been added since the handler counted, or what it counted leaves room for that
-- too. The API's domain handler does not look at the capacity, nor the admin API's at the plan.
def Change.Room (seen : Sight) (d : Data) : Change → Prop
  | .invite _ row _ =>
    seen.added = 0 ∨
      ∀ o ∈ d.organizations, o.id = row.orgId → seen.used + seen.added < (spec o.plan).mailboxLimit + seen.ended
  | .domain row => ∀ o ∈ d.organizations, o.id = row.orgId → (d.domainCount o.id : Int) < o.domainCap
  | .adminDomain row =>
    ∀ o ∈ d.organizations, o.id = row.orgId →
      d.domainCount o.id < (spec o.plan).domainLimit ∧
      (seen.added = 0 ∧ seen.limit = o.domainCap ∨ (seen.used + seen.added : Nat) < o.domainCap)
  | _ => True

instance (seen : Sight) (d : Data) : DecidablePred (Change.Room seen d) := fun
  | .invite .. => inferInstanceAs (Decidable (_ ∨ ∀ o ∈ d.organizations, _))
  | .domain _ | .adminDomain _ => inferInstanceAs (Decidable (∀ o ∈ d.organizations, _))
  | .register .. | .setPlan .. | .syncPlan .. | .setCapacity .. | .verify _ | .mailbox _ | .claim .. | .remove .. |
    .addAlias _ | .dropAlias .. => .isTrue trivial

def Room (trace : List (State × Event)) (s : State) : Event → Prop
  | .arrive _ => True
  | .step k draw => ∀ c ∈ changing rt s (.step k draw), c.Room (sight rt k trace) s.data

instance (trace : List (State × Event)) (s : State) : ∀ e, Decidable (Room rt trace s e)
  | .arrive _ => .isTrue trivial
  | .step k draw => inferInstanceAs (Decidable (∀ c ∈ changing rt s (.step k draw), _))

end

def Change.Below (d : Data) : Change → Prop
  | .invite _ row _ => ∀ o ∈ d.organizations, o.id = row.orgId → d.activeMailboxes o.id < (spec o.plan).mailboxLimit
  | .domain row => ∀ o ∈ d.organizations, o.id = row.orgId → (d.domainCount o.id : Int) < o.domainCap
  | .adminDomain row =>
    ∀ o ∈ d.organizations, o.id = row.orgId →
      d.domainCount o.id < (spec o.plan).domainLimit ∧ (d.domainCount o.id : Int) < o.domainCap
  | _ => True

section
variable {d : Data} {c : Change}

theorem spec_plan (tables : Tables d) (there : o ∈ d.organizations) : spec (d.plan o.id) = spec o.plan := by
  have found : d.organizations.find? (·.id = o.id) = some o :=
    Table.find?_unique tables.organizations there (decide_eq_true rfl) fun other hit => of_decide_eq_true hit
  simp only [Data.plan,found,Option.map_some,Option.getD_some]
  split
  · rename_i blank
    rw [blank]
    rfl
  · rfl

theorem added_count {Row : Type} {rows : List Row} {p : Row → Bool} (few : rows.length ≤ 1) :
    rows.countP p = 0 ∨ rows.countP p ≤ 1 ∧ ∃ row ∈ rows, p row = true := by
  rcases Nat.eq_zero_or_pos (rows.countP p) with none | some
  · exact .inl none
  · exact .inr ⟨Nat.le_trans List.countP_le_length few,List.countP_pos_iff.mp some⟩

-- The create handler and the API's domain handler have counted under the lock of the
-- organisation; the others are below the limit by the condition.
theorem mailbox_room (tables : Tables d) (rests : c.Rests began locks d) (room : c.Below d) (there : o ∈ d.organizations)
    (new : row ∈ c.mailboxes) (owned : row.orgId = o.id) : d.activeMailboxes o.id < (spec o.plan).mailboxLimit := by
  cases c with
  | mailbox added =>
    cases List.mem_singleton.mp new
    obtain ⟨-,below⟩ := rests (.mailboxRoom row.orgId) (by simp [Change.facts])
    rwa [Data.hasMailboxRoom,owned,spec_plan tables there] at below
  | invite user added invitation =>
    cases List.mem_singleton.mp new
    exact room o there owned.symm
  | _ => cases new

theorem domain_room (tables : Tables d) (rests : c.Rests began locks d) (room : c.Below d) (there : o ∈ d.organizations)
    (new : row ∈ c.domains) (owned : row.orgId = o.id) :
    d.domainCount o.id < (spec o.plan).domainLimit ∧ (d.domainCount o.id : Int) < o.domainCap := by
  cases c with
  | domain added =>
    cases List.mem_singleton.mp new
    obtain ⟨-,below⟩ := rests (.domainRoom row.orgId) (by simp [Change.facts])
    rw [Data.hasDomainRoom,owned,spec_plan tables there] at below
    exact ⟨below,room o there owned.symm⟩
  | adminDomain added =>
    cases List.mem_singleton.mp new
    exact room o there owned.symm
  | _ => cases new

theorem within_apply (tables : Tables d) (rests : c.Rests began locks d) (room : c.Below d) (there : o ∈ d.organizations) :
    Within d (c.apply d) o := by
  obtain ⟨-,fewDomains,fewMailboxes⟩ := few_added c
  have mailboxes := activeMailboxes_apply rests o.id
  have domains := domainCount_apply (c:=c) (d:=d) o.id
  have planDomains : (c.apply d).domainCount o.id = d.domainCount o.id ∨ (c.apply d).domainCount o.id ≤ d.domainCount o.id + 1 ∧
      d.domainCount o.id < (spec o.plan).domainLimit ∧ (d.domainCount o.id : Int) < o.domainCap := by
    rcases added_count fewDomains with none | ⟨one,row,new,owned⟩
    · exact .inl (by rw [domains,none]; rfl)
    · exact .inr ⟨by omega,domain_room tables rests room there new (of_decide_eq_true owned)⟩
  refine ⟨?_,by omega,by omega⟩
  rcases added_count fewMailboxes with none | ⟨one,row,new,owned⟩
  · rw [none] at mailboxes
    omega
  · have below := mailbox_room tables rests room there new (of_decide_eq_true owned)
    omega

theorem within_below (rests : c.Rests began locks d) (within : ∀ o ∈ d.organizations, o ∈ (c.apply d).organizations →
    Within d (c.apply d) o) : c.Below d := by
  have counted : ∀ (row : Mailbox) (o : Organization), o.id = row.orgId → row.isActive = true →
      (d.mailboxes ++ [row]).countP (fun m => m.orgId = o.id ∧ m.isActive) = d.activeMailboxes o.id + 1 := by
    intro row o owns active
    rw [List.countP_append,List.countP_singleton,if_pos (by simp [owns,active])]
    rfl
  have listed : ∀ (row : Domain) (o : Organization), o.id = row.orgId → [row].countP (fun dom => dom.orgId = o.id) = 1 := by
    intro row o owns
    simp [owns]
  cases c with
  | invite user row invitation =>
    intro o there owns
    have bound := (within o there there).mailboxes
    have more : (Change.apply d (.invite user row invitation)).activeMailboxes o.id = d.activeMailboxes o.id + 1 :=
      counted row o owns (rests.mailbox List.mem_cons_self).2.2.2.2.2.1
    omega
  | domain row =>
    intro o there owns
    have bound := (within o there there).capDomains
    rw [domainCount_apply,Change.domains,listed row o owns] at bound
    omega
  | adminDomain row =>
    intro o there owns
    have bound := (within o there there).planDomains
    have bound' := (within o there there).capDomains
    rw [domainCount_apply,Change.domains,listed row o owns] at bound bound'
    omega
  | _ => trivial

end

section
variable {rt : Runtime} {s t u : State}

theorem Within.refl (d : Data) (o : Organization) : Within d d o := ⟨by omega,by omega,by omega⟩

theorem Within.trans (one : Within d middle o) (two : Within middle later o) : Within d later o := by
  obtain ⟨a,b,c⟩ := one
  obtain ⟨a',b',c'⟩ := two
  exact ⟨by omega,by omega,by omega⟩

theorem step_within (reached : Reached s) (taken : advance rt s e = some t)
    (room : ∀ c ∈ changing rt s e, c.Below s.data) (there : o ∈ s.data.organizations) : Within s.data t.data o := by
  obtain ⟨moved,rested⟩ := reached.changing taken
  rw [moved]
  cases change : changing rt s e with
  | none => exact .refl _ _
  | some c =>
    obtain ⟨began,locks,rests⟩ := rested c change
    exact within_apply reached.sound.inv rests (room c change) there

-- By induction over the part of the run.
theorem part_within (reached : Reached s) (path : Runs (advance rt) s later t)
    (room : Throughout (fun s e => ∀ c ∈ changing rt s e, c.Below s.data) later)
    (stays : ∀ p ∈ later, o ∈ p.1.data.organizations) : Within s.data t.data o := by
  have keeps : ∀ (middle : State) e next, Reached middle ∧ Within s.data middle.data o →
      ((∀ c ∈ changing rt middle e, c.Below middle.data) ∧ o ∈ middle.data.organizations) →
      advance rt middle e = some next → Reached next ∧ Within s.data next.data o := by
    rintro middle e next ⟨valid,within⟩ ⟨allowed,there⟩ taken
    exact ⟨valid.advance taken,within.trans (step_within valid taken allowed there)⟩
  exact (path.invariant keeps ⟨reached,.refl _ _⟩ fun p member => ⟨room p member,stays p member⟩).2

theorem bounded_iff_below (path : Runs (advance rt) (start clock) trace after) :
    Bounded rt (start clock) trace ↔ Throughout (fun s e => ∀ c ∈ changing rt s e, c.Below s.data) trace := by
  constructor
  · rintro bounded ⟨s,e⟩ member c change
    obtain ⟨earlier,t,later,whole,prior,taken,-⟩ := path.visit member
    have reached := run_reached prior
    obtain ⟨moved,rested⟩ := reached.changing taken
    obtain ⟨began,locks,rests⟩ := rested c change
    rw [show changing rt s e = some c from change] at moved
    apply within_below rests
    intro o there stays
    have within := bounded earlier s [(s,e)] t later whole prior (.single taken) o (by rw [moved]; exact stays)
      (by simpa using there)
    rwa [moved] at within
  · rintro room earlier s later t rest rfl prior segment o - stays
    obtain ⟨-,rest'⟩ := throughout_append.mp room
    exact part_within (run_reached prior) segment (throughout_append.mp rest').1 stays

end

-- An invitation and a domain of the admin API are committed for the organisation of their request.
def Change.Ordered (request : Request) : Change → Prop
  | .invite _ row _ => ∃ body, request = .invite row.orgId body
  | .adminDomain row => ∃ text, request = .adminDomain row.orgId text
  | _ => True

def Stage.Ordered (stage : Stage) : Prop := ∀ c, stage.point = .pending c → c.Ordered stage.request

def Change.Counted : Change → Prop
  | .invite .. | .adminDomain _ => True
  | _ => False

-- A deed stays with its request, and such a row it commits at its end only.
def Orders (stage : Stage) (act : Option Deed) : Prop :=
  ∀ deed ∈ act, deed.next.request = stage.request ∧ deed.next.Ordered ∧ ∀ c ∈ deed.change, c.Counted → stage.point = .pending c

section
variable {request : Request} {point : Point} {d : Data} {draw : Draw}

theorem done_ordered : (Stage.mk request (.done reply)).Ordered := fun c other => by cases other

theorem pending_ordered (ordered : Change.Ordered request c) : (Stage.mk request (.pending c)).Ordered := by
  rintro c' ⟨⟩
  exact ordered

theorem none_orders : Orders ⟨request,point⟩ none := fun _ acts => by cases acts

theorem answer_orders : Orders ⟨request,point⟩ (answer request reply) := by
  rintro deed ⟨⟩
  exact ⟨rfl,done_ordered,fun c none => by cases none⟩

theorem refuse_orders : Orders ⟨request,point⟩ (refuse request status message) := answer_orders

theorem begin_orders : Orders ⟨request,point⟩ (some (.begin ⟨request,.opened place⟩)) := by
  rintro deed ⟨⟩
  refine ⟨rfl,?_,fun c none => by cases none⟩
  intro c other
  cases other

theorem step_orders (ordered : (Stage.mk request next).Ordered) : Orders ⟨request,point⟩ (step request taken next) := by
  rintro deed ⟨⟩
  exact ⟨rfl,ordered,fun c none => by cases none⟩

theorem single_orders (free : ¬Change.Counted c) (ordered : (Stage.mk request next).Ordered) :
    Orders ⟨request,point⟩ (some (.single taken c ⟨request,next⟩)) := by
  rintro deed ⟨⟩
  refine ⟨rfl,ordered,?_⟩
  rintro c' ⟨⟩ counted
  exact absurd counted free

theorem conclude_orders : Orders ⟨request,.pending c⟩ (conclude request c message status draw) := by
  have committed : ∀ c' ∈ some c, c'.Counted → Point.pending c = .pending c' := by
    rintro c' ⟨⟩ -
    rfl
  unfold conclude
  split
  · rintro deed ⟨⟩
    exact ⟨rfl,done_ordered,committed⟩
  · exact refuse_orders
  · rintro deed ⟨⟩
    exact ⟨rfl,done_ordered,committed⟩

theorem audited_orders : Orders ⟨request,.pending c⟩ (audited request c status draw) := by
  unfold audited
  split
  · exact refuse_orders
  · exact conclude_orders

theorem lockOrganization_orders : Orders ⟨request,point⟩ (lockOrganization request orgId place d draw) := by
  unfold lockOrganization
  split
  · exact refuse_orders
  · exact step_orders fun c other => by cases other

theorem insertDomain_orders {failure taken : String} (ordered : Change.Ordered request c) :
    Orders ⟨request,point⟩ (insertDomain request row failure c d draw taken) := by
  unfold insertDomain
  split
  · exact refuse_orders
  · split
    · exact refuse_orders
    · exact step_orders (pending_ordered ordered)

-- The points of all handlers alike: most deeds end in a refusal or lead to the next point, and
-- the change a handler prepares names the organisation of its request.
theorem handle_orders : Orders stage (handle rt stage began clock d draw) := by
  obtain ⟨request,point⟩ := stage
  have waits (taken : List Lock) (next : Point) (other : ∀ c, next ≠ .pending c) :
      Orders ⟨request,point⟩ (step request taken next) := step_orders fun c same => absurd same (other c)
  cases request
  all_goals simp only [handle,registerHandler,mailboxesHandler,mailboxInviteHandler,invitationClaimHandler,deleteMailbox,
    mailboxAliasesHandler,mailboxAliasItemHandler,domainsHandler,handleAdminCreateDomain,domainVerifyHandler,billingHandler,
    handleUpdatePlan,handleAdjustCapacity,disconnected]
  all_goals repeat' split
  all_goals first
    | exact refuse_orders
    | exact answer_orders
    | exact begin_orders
    | exact none_orders
    | exact step_orders (pending_ordered trivial)
    | exact step_orders (pending_ordered ⟨_,rfl⟩)
    | exact waits _ _ (by simp)
    | exact conclude_orders
    | exact audited_orders
    | exact lockOrganization_orders
    | exact insertDomain_orders trivial
    | exact insertDomain_orders ⟨_,rfl⟩
    | exact single_orders id (fun c other => by cases other)

end

-- What a handler relies on, as far as its own statements and the lock on its organisation go.
def Informs (seen : Sight) (session : Session) (d : Data) : Prop :=
  match session.stage with
  | ⟨.invite orgId _,.counted _ used⟩ => seen.used = used ∧ seen.used + seen.added = d.activeMailboxes orgId + seen.ended
  | ⟨.invite orgId _,.allowed _⟩ | ⟨.invite orgId _,.stored _⟩ | ⟨.invite orgId _,.unique _⟩ | ⟨.invite orgId _,.pending _⟩ =>
    (.organization orgId .update ∈ session.locks ∧ seen.used < (spec (d.plan orgId)).mailboxLimit) ∧
      seen.used + seen.added = d.activeMailboxes orgId + seen.ended
  | ⟨.adminDomain _ _,.capped limit⟩ => seen.limit = limit
  | ⟨.adminDomain orgId _,.allowed _⟩ | ⟨.adminDomain orgId _,.pending _⟩ =>
    (seen.used : Int) < seen.limit ∧ seen.used + seen.added = d.domainCount orgId
  | _ => True

-- What a deed of its own leaves a handler with.
def Tells (seen : Sight) (session : Session) (clock : Nat) (d : Data) (act : Option Deed) : Prop :=
  ∀ deed ∈ act, Informs seen (deed.action.session clock session) (deed.change.elim d (Change.apply d))

section
variable {seen : Sight} {session : Session} {d : Data} {request : Request}

theorem done_informs (there : session.stage = ⟨request,.done reply⟩) : Informs seen session d := by
  unfold Informs
  rw [there]
  cases request <;> trivial

theorem answer_tells : Tells seen session clock d (answer request reply) := by
  rintro deed ⟨⟩
  exact done_informs rfl

theorem refuse_tells : Tells seen session clock d (refuse request status message) := answer_tells

theorem conclude_tells : Tells seen session clock d (conclude request c message status draw) := by
  unfold conclude
  split
  · rintro deed ⟨⟩
    exact done_informs rfl
  · exact refuse_tells
  · rintro deed ⟨⟩
    exact done_informs rfl

-- The lock and the room below it, with the count as it is by now.
theorem invite_rests (held : .organization orgId .update ∈ session.locks ∧ seen.used < (spec (d.plan orgId)).mailboxLimit)
    (tally : seen.used + seen.added = d.activeMailboxes orgId + seen.ended) (taken : List Lock) :
    (.organization orgId .update ∈ session.locks ++ taken ∧ seen.used < (spec (d.plan orgId)).mailboxLimit) ∧
      seen.used + seen.added = d.activeMailboxes orgId + seen.ended :=
  ⟨⟨List.mem_append_left _ held.1,held.2⟩,tally⟩

theorem invite_tells (there : session.stage = ⟨.invite orgId body,point⟩) (informs : Informs seen session d) :
    Tells (seen.reads d ⟨.invite orgId body,point⟩) session clock d
      (mailboxInviteHandler rt (.invite orgId body) orgId body point clock d draw) := by
  unfold Informs at informs
  rw [there] at informs
  cases point with
  | start =>
    simp only [mailboxInviteHandler]
    split
    · exact refuse_tells
    · split
      · exact answer_tells
      · split
        · exact refuse_tells
        · rintro deed ⟨⟩
          trivial
  | opened place =>
    simp only [mailboxInviteHandler,disconnected]
    split
    · exact refuse_tells
    · rintro deed ⟨⟩
      exact ⟨rfl,rfl⟩
  | counted place used =>
    obtain ⟨same,tally⟩ := informs
    simp only [mailboxInviteHandler,disconnected]
    split
    · split
      · exact answer_tells
      · exact refuse_tells
    · split
      · exact answer_tells
      · rename_i below
        rintro deed ⟨⟩
        have below' : seen.used < (spec (d.plan orgId)).mailboxLimit := same ▸ Nat.lt_of_not_le below
        exact ⟨⟨List.mem_append_right _ List.mem_cons_self,below'⟩,tally⟩
  | allowed place =>
    simp only [mailboxInviteHandler,disconnected]
    split
    · exact refuse_tells
    · rintro deed ⟨⟩
      exact invite_rests informs.1 informs.2 _
  | stored place =>
    cases place with
    | none => exact fun deed acts => by cases acts
    | some place =>
      simp only [mailboxInviteHandler]
      split
      · exact refuse_tells
      · split
        · exact refuse_tells
        · split
          · exact refuse_tells
          · rintro deed ⟨⟩
            exact invite_rests informs.1 informs.2 _
  | unique place =>
    cases place with
    | none => exact fun deed acts => by cases acts
    | some place =>
      simp only [mailboxInviteHandler]
      split
      · exact refuse_tells
      · split
        · exact refuse_tells
        · split
          · exact refuse_tells
          · rintro deed ⟨⟩
            exact invite_rests informs.1 informs.2 _
  | pending change => exact conclude_tells
  | _ => exact fun deed acts => by cases acts

theorem adminDomain_tells (there : session.stage = ⟨.adminDomain orgId text,point⟩) (informs : Informs seen session d) :
    Tells (seen.reads d ⟨.adminDomain orgId text,point⟩) session clock d
      (handleAdminCreateDomain rt (.adminDomain orgId text) orgId text point d draw) := by
  unfold Informs at informs
  rw [there] at informs
  unfold handleAdminCreateDomain
  split
  · exact refuse_tells
  cases point with
  | start =>
    rintro deed ⟨⟩
    trivial
  | opened place =>
    simp only
    split
    · exact refuse_tells
    · rename_i o found
      split at found
      · cases found
      · rintro deed ⟨⟩
        show ((d.organizations.find? (·.id = orgId)).map (·.domainCap)).getD 0 = o.domainCap
        rw [found]
        rfl
  | capped limit =>
    simp only
    split
    · exact refuse_tells
    · split
      · exact answer_tells
      · rename_i below
        rintro deed ⟨⟩
        have below' : (d.domainCount orgId : Int) < seen.limit := informs ▸ Int.lt_of_not_ge below
        exact ⟨below',rfl⟩
  | allowed place =>
    simp only [insertDomain]
    split
    · exact refuse_tells
    · split
      · exact refuse_tells
      · rintro deed ⟨⟩
        exact informs
  | pending change =>
    simp only [audited]
    split
    · exact refuse_tells
    · exact conclude_tells
  | _ => exact fun deed acts => by cases acts

def Request.Counts : Request → Prop
  | .invite _ _ | .adminDomain _ _ => True
  | _ => False

theorem other_informs (other : ¬session.stage.request.Counts) : Informs seen session d := by
  unfold Informs
  split <;> first | trivial | exact absurd (by simp [*,Request.Counts]) other

theorem handle_tells (informs : Informs seen session d) :
    Tells (seen.reads d session.stage) session clock d (handle rt session.stage began clock d draw) := by
  by_cases counts : session.stage.request.Counts
  · generalize there : session.stage = stage at counts
    obtain ⟨request,point⟩ := stage
    cases request with
    | invite orgId body => exact invite_tells there informs
    | adminDomain orgId text => exact adminDomain_tells there informs
    | _ => exact counts.elim
  · intro deed acts
    apply other_informs
    rw [deed.stage,(handle_orders deed acts).1]
    exact counts

-- A commit of another request leaves the handler its lock and its plan.
theorem Informs.misses (informs : Informs seen session d) (rests : c.Rests began mine d)
    (apart : Compatible conflict mine session.locks) : Informs (seen.misses d c session.stage.request) session (c.apply d) := by
  unfold Informs at informs ⊢
  generalize session.stage = stage at informs ⊢
  have tally : ∀ orgId, seen.used + seen.added = d.activeMailboxes orgId + seen.ended →
      seen.used + (seen.added + c.mailboxes.countP (·.orgId = orgId)) =
        (c.apply d).activeMailboxes orgId + (seen.ended + c.ends d orgId) := by
    intro orgId counted
    have moves := activeMailboxes_moves rests orgId
    omega
  obtain ⟨request,point⟩ := stage
  cases request with
  | invite orgId body =>
    have rested : (.organization orgId .update ∈ session.locks ∧ seen.used < (spec (d.plan orgId)).mailboxLimit) ∧
        seen.used + seen.added = d.activeMailboxes orgId + seen.ended →
        (.organization orgId .update ∈ session.locks ∧ seen.used < (spec ((c.apply d).plan orgId)).mailboxLimit) ∧
        seen.used + (seen.added + c.mailboxes.countP (·.orgId = orgId)) =
          (c.apply d).activeMailboxes orgId + (seen.ended + c.ends d orgId) := by
      rintro ⟨⟨held,below⟩,counted⟩
      rw [others_plan rests apart held]
      exact ⟨⟨held,below⟩,tally orgId counted⟩
    cases point with
    | counted place used => exact ⟨informs.1,tally orgId informs.2⟩
    | allowed | stored | unique | pending => exact rested informs
    | _ => trivial
  | adminDomain orgId text =>
    have counted : seen.used + seen.added = d.domainCount orgId →
        seen.used + (seen.added + c.domains.countP (·.orgId = orgId)) = (c.apply d).domainCount orgId := by
      intro counted
      rw [domainCount_apply]
      omega
    cases point with
    | capped limit => exact informs
    | allowed | pending => exact ⟨informs.1,counted informs.2⟩
    | _ => trivial
  | _ => trivial

end

structure Informed (rt : Runtime) (trace : List (State × Event)) (s : State) : Prop where
  reached : Reached s
  ordered : ∀ session ∈ s.sessions, session.stage.Ordered
  informs : ∀ (k : Nat) (session : Session), s.sessions[k]? = some session → Informs (sight rt k trace) session s.data

section
variable {rt : Runtime} {s t : State} {e : Event} {trace : List (State × Event)}

theorem sight_snoc (k : Nat) (trace : List (State × Event)) :
    sight rt k (trace ++ [(s,e)]) = look rt k (sight rt k trace) (s,e) := by
  rw [sight,List.foldl_append]
  rfl

theorem entry_ordered (request : Request) : (entry request).Ordered := fun c other => by cases other

theorem Informed.step (informed : Informed rt trace s) (taken : advance rt s e = some t) :
    Informed rt (trace ++ [(s,e)]) t := by
  have reached := informed.reached
  rcases advance_cases taken with ⟨request,rfl,rfl⟩ | ⟨k,draw,session,action,rfl,found,acts,free,rfl⟩
  · refine ⟨reached.advance taken,?_,?_⟩
    · intro session member
      rcases List.mem_append.mp member with old | new
      · exact informed.ordered session old
      · cases List.mem_singleton.mp new
        exact entry_ordered request
    · intro k session found
      rw [sight_snoc]
      rcases Table.getElem?_snoc found with found | ⟨_,rfl⟩
      · have same : look rt k (sight rt k trace) (s,.arrive request) = sight rt k trace := by
          simp [look,found,own,changing]
        rw [same]
        exact informed.informs k session found
      · unfold Informs
        cases request <;> trivial
  · have member := List.mem_of_getElem? found
    have unwritten := reached.unwritten session member
    obtain ⟨deed,handled,rfl,follows⟩ := reached.follows member acts
    have changes : changing rt s (.step k draw) = deed.change := by
      simp only [changing,found,Option.bind_some,handled]
    refine ⟨reached.advance taken,?_,?_⟩
    · intro other there
      rcases List.mem_or_eq_of_mem_set there with old | rfl
      · exact informed.ordered other old
      · rw [deed.stage]
        exact (handle_orders deed handled).2.1
    · intro j other look'
      rw [sight_snoc]
      show Informs _ other (deed.action.data session s.data)
      rw [deed.data unwritten]
      rcases set_get look' with ⟨rfl,rfl⟩ | ⟨different,there⟩
      · have reads : look rt j (sight rt j trace) (s,.step j draw) = (sight rt j trace).reads s.data session.stage := by
          simp [look,found,own]
        rw [reads]
        exact handle_tells (informed.informs j session found) deed handled
      · have misses : look rt j (sight rt j trace) (s,.step k draw) =
            deed.change.elim (sight rt j trace) fun c => (sight rt j trace).misses s.data c other.stage.request := by
          simp [look,there,own,different.symm,changes]
        rw [misses]
        have informs := informed.informs j other there
        cases change : deed.change with
        | none => exact informs
        | some c =>
          have apart : Compatible conflict (session.locks ++ deed.locks) other.locks := by
            refine compatible_append.mpr ⟨reached.sound.exclusive k j session other found there different.symm,?_⟩
            rw [← deed.action_locks]
            exact free_iff.mp free j other there different
          exact informs.misses (follows.quiet c change) apart

theorem Informed.committing (informed : Informed rt trace s) (change : changing rt s (.step k draw) = some c)
    (counted : c.Counted) : ∃ session request, session.stage = ⟨request,.pending c⟩ ∧ c.Ordered request ∧
      Informs (sight rt k trace) session s.data := by
  simp only [changing,Option.bind_eq_some_iff] at change
  obtain ⟨session,found,deed,handled,same⟩ := change
  have pending := (handle_orders deed handled).2.2 c same counted
  have ordered := informed.ordered session (List.mem_of_getElem? found) c pending
  exact ⟨session,session.stage.request,by rw [← pending],ordered,informed.informs k session found⟩

-- What has been added leaves room exactly where the rows of now do.
theorem room_iff_below (informed : Informed rt trace s) : Room rt trace s e ↔ ∀ c ∈ changing rt s e, c.Below s.data := by
  cases e with
  | arrive request => simp [Room,changing]
  | step k draw =>
    refine forall_congr' fun c => forall_congr' fun change => ?_
    have tables := informed.reached.sound.inv
    cases c with
    | invite user row invitation =>
      obtain ⟨session,_,there,⟨body,rfl⟩,informs⟩ := informed.committing change trivial
      simp only [Informs,there] at informs
      obtain ⟨⟨-,below⟩,tally⟩ := informs
      simp only [Change.Room,Change.Below]
      generalize sight rt k trace = seen at below tally
      constructor
      · rintro room o member owns
        rw [← owns,spec_plan tables member] at below
        rw [← owns] at tally
        rcases room with none | room
        · omega
        · have := room o member owns
          omega
      · intro room
        right
        intro o member owns
        have := room o member owns
        rw [← owns] at tally
        omega
    | adminDomain row =>
      obtain ⟨session,_,there,⟨text,rfl⟩,informs⟩ := informed.committing change trivial
      simp only [Informs,there] at informs
      obtain ⟨below,tally⟩ := informs
      simp only [Change.Room,Change.Below]
      generalize sight rt k trace = seen at below tally
      refine forall_congr' fun o => forall_congr' fun _ => forall_congr' fun owns => and_congr_right fun _ => ?_
      rw [← owns] at tally
      rw [← tally]
      constructor
      · rintro (⟨none,same⟩ | room)
        · rw [none,← same]
          exact below
        · exact room
      · exact .inr
    | _ => exact Iff.rfl

-- The bounds hold over every part of a run exactly when every invitation and every domain of
-- the admin API is committed with nothing added since its count that it leaves no room for, and
-- every domain below the limit that its handler does not look at.
theorem quotas_exactly (path : Runs (advance rt) (start clock) trace after) :
    Bounded rt (start clock) trace ↔ Along (Room rt) trace := by
  have origin : Informed rt [] (start clock) := ⟨start_reached clock,by simp [start],by simp [start]⟩
  have keeps : ∀ trace s e t, Informed rt trace s → advance rt s e = some t → Informed rt (trace ++ [(s,e)]) t :=
    fun _ _ _ _ informed taken => informed.step taken
  rw [bounded_iff_below path,← along_throughout]
  exact (path.along_congr keeps (fun _ _ _ _ informed _ => room_iff_below informed) origin).symm

end

theorem quotas_exactly_invited : ∃ trace t, Runs (advance sample) (start 0) trace t ∧ Bounded sample (start 0) trace ∧
    t.data.activeMailboxes 1 = 1 := by
  obtain ⟨trace,t,path,room,count⟩ : ∃ trace t, Runs (advance sample) (start 0) trace t ∧
      Along (Room sample) trace ∧ t.data.activeMailboxes 1 = 1 :=
    follow_ends (registered ++ invited 3 2 "bo") (by decide +kernel)
  exact ⟨trace,t,path,(quotas_exactly path).mpr room,count⟩

-- Two invitations on a plan with one mailbox, both counted before either locks.
def overlapping : List Event :=
  let step (k id : Nat) : Event := .step k ⟨false,id,id,true,.committed⟩
  [.arrive (.invite 1 (invitation 2 "al" "")),.arrive (.invite 1 (invitation 3 "bo" "")),step 3 2,step 4 3,step 3 2,step 4 3] ++
    List.replicate 5 (step 3 2) ++ List.replicate 5 (step 4 3)

theorem invitations_overrun : ∃ trace t, Runs (advance sample) (start 0) trace t ∧ ¬Bounded sample (start 0) trace := by
  obtain ⟨trace,s,more,t,path,segment,o,there,stays,before,limit,after⟩ : ∃ trace s more t,
      Runs (advance sample) (start 0) trace s ∧ Runs (advance sample) s more t ∧
      ∃ o ∈ t.data.organizations, (∀ p ∈ more, o ∈ p.1.data.organizations) ∧ s.data.activeMailboxes o.id = 0 ∧
        (spec o.plan).mailboxLimit = 1 ∧ t.data.activeMailboxes o.id = 2 :=
    follow_stages registered overlapping (by decide +kernel)
  refine ⟨trace ++ more,t,path.append segment,fun bounded => ?_⟩
  have within := (bounded trace s more t [] (by simp) path segment o there stays).mailboxes
  omega

end ByosMail.AddressBook
