import ByosMail.Folders

-- What one statement of the folder and filing handlers does to the tables, and the folder
-- parents over whole runs.
namespace ByosMail.Folders
open GoText Machine Transactions

def FolderBody.parent (body : FolderBody) : Option Nat := (given body.parentId).bind Uuid.read

-- An answer that comes without a write.
def Reply.quiet : Reply → Bool
  | .error _ _ | .alreadyImported _ => true
  | _ => false

-- Folder f has been seen in the mailbox; its id is never another folder's.
def Homes (d : Data) (mailboxId f : Nat) : Prop := f ∈ d.drawn ∧ ∀ g ∈ d.folders, g.id = f → g.mailboxId = mailboxId

def Places (d : Data) (mailboxId : Nat) (body : Option FolderBody) (parent : Option Nat) : Prop :=
  (∃ b, body = some b ∧ parent = b.parent) ∧ ∀ p ∈ parent, Homes d mailboxId p

def Files (rt : Runtime) (d : Data) (mailboxId : Nat) (body : Option MoveBody) (folder : String) (folderId : Option Nat) : Prop :=
  ∃ b, body = some b ∧ ((folderId = none ∧ given b.folderId = none ∧ folder = b.target rt) ∨
    ∃ f, folderId = some f ∧ (given b.folderId).isSome = true ∧ folder = "custom" ∧ Homes d mailboxId f)

-- What a session can rely on between its statements.
def Knows (rt : Runtime) (d : Data) : Stage → Prop
  | ⟨.create mailboxId body,.placed _ parent⟩ | ⟨.create mailboxId body,.free _ parent⟩ | ⟨.update mailboxId _ body,.placed _ parent⟩ =>
    Places d mailboxId body parent
  | ⟨.move mailboxId _ body,.filing folder folderId⟩ => Files rt d mailboxId body folder folderId
  | _ => True

inductive Step (rt : Runtime) (d : Data) : Option (Request × Reply) → Data → Prop where
  | idle {result : Option (Request × Reply)} (quiet : ∀ request reply, result = some (request,reply) → reply.quiet = true) : Step rt d result d
  | created (row : Folder) (homes : ∀ p ∈ row.parentId, Homes d row.mailboxId p) (fresh : row.id ∉ d.drawn)
      (takes : d.takes rt row = true) :
      Step rt d (some (.create row.mailboxId body,.created row)) (insertFolder row d)
  | updated {body : FolderBody} (columns : Columns) (present : f ∈ d.folders) (named : Uuid.read folderID = some f.id)
      (homes : ∀ p ∈ body.parent, Homes d f.mailboxId p) (takes : d.takes rt (columns.assign body.parent f) = true) :
      Step rt d (some (.update f.mailboxId folderID (some body),.updated (columns.assign body.parent f)))
        (updateFolder columns body.parent f.id f.mailboxId d)
  | emptied (folderId mailboxId : Nat) : Step rt d none (emptyFolder folderId mailboxId d)
  | deleted (present : f ∈ d.folders) (named : Uuid.read folderID = some f.id) :
      Step rt d (some (.delete f.mailboxId folderID,.deleted)) (deleteFolder f.id d)
  | moved {body : MoveBody} (present : m ∈ d.messages) (named : Uuid.read messageID = some m.id)
      (files : Files rt d m.mailboxId (some body) folder folderId) (there : ∀ f ∈ folderId, f ∈ d.folders.map (·.id)) :
      Step rt d (some (.move m.mailboxId messageID (some body),.moved {m with folder:=folder,folderId:=folderId}))
        (fileMessage folder folderId m.id m.mailboxId d)
  | imported (row : Message) (target : importFolder rt text = some row.folder) (unfiled : row.folderId = none)
      (fresh : row.id ∉ d.messages.map (·.id)) :
      Step rt d (some (.importMessage row.mailboxId row.deliveryIdentity text,.imported row)) (insertMessage row d)

-- What the constraints and the SELECTs before each write keep true of the tables.
structure Tables (d : Data) : Prop where
  distinct : (d.folders.map (·.id)).Nodup
  drawn : ∀ f ∈ d.folders, f.id ∈ d.drawn
  related : ∀ f ∈ d.folders, ∀ p ∈ f.parentId, ∃ g ∈ d.folders, g.id = p ∧ g.mailboxId = f.mailboxId
  filed : ∀ m ∈ d.messages, ∀ f ∈ m.folderId, ∃ g ∈ d.folders, g.id = f ∧ g.mailboxId = m.mailboxId
  messages : (d.messages.map (·.id)).Nodup

def Looks (rt : Runtime) (d : Data) (action : Deed) : Prop :=
  Step rt d action.next.answered (action.effect d) ∧ Knows rt (action.effect d) action.next ∧ action.Passive

theorem refuse_looks (refused : refuse request status message = some action) : Looks rt d action := by
  cases refused
  refine ⟨.idle ?_,?_,trivial⟩
  · rintro _ _ ⟨⟩
    rfl
  · cases request <;> trivial

theorem owned_homes (tables : Tables d) (owned : d.owns mailboxId f = true) : Homes d mailboxId f := by
  simp only [Data.owns,List.any_eq_true,decide_eq_true_eq] at owned
  obtain ⟨f,present,rfl,rfl⟩ := owned
  refine ⟨tables.drawn f present,fun g member same => ?_⟩
  rw [Table.unique_row tables.distinct member present same]

theorem place_looks (known : ∀ columns parent, Places d mailboxId body parent → Knows rt d ⟨request,.placed columns parent⟩)
    (tables : Tables d) (acts : place rt request mailboxId body folderID d draw = some action) : Looks rt d action := by
  unfold place at acts
  split at acts
  · exact refuse_looks acts
  · rename_i b
    split at acts
    · exact refuse_looks acts
    · rename_i columns checked
      split at acts
      · rename_i alone
        cases acts
        refine ⟨.idle (by rintro _ _ ⟨⟩),known columns none ⟨⟨b,rfl,?_⟩,fun p none => nomatch none⟩,trivial⟩
        rw [FolderBody.parent,alone]
        rfl
      · rename_i parentID asked
        split at acts
        · exact refuse_looks acts
        · split at acts
          · exact refuse_looks acts
          · split at acts
            · exact refuse_looks acts
            · rename_i parent read
              split at acts
              · rename_i owned
                cases acts
                refine ⟨.idle (by rintro _ _ ⟨⟩),known columns (some parent) ⟨⟨b,rfl,?_⟩,?_⟩,trivial⟩
                · rw [FolderBody.parent,asked]
                  split at read
                  · cases read
                  · exact read.symm
                · rintro p ⟨⟩
                  exact owned_homes tables owned
              · exact refuse_looks acts

theorem create_looks (tables : Tables d) (knows : Knows rt d ⟨.create mailboxId body,point⟩)
    (acts : createHandler rt (.create mailboxId body) mailboxId body point clock d draw = some action) : Looks rt d action := by
  cases point with
  | start =>
    have placed : ∀ columns parent, Places d mailboxId body parent → Knows rt d ⟨.create mailboxId body,.placed columns parent⟩ :=
      fun _ _ places => places
    exact place_looks placed tables acts
  | placed columns parent =>
    simp only [createHandler] at acts
    split at acts
    · exact refuse_looks acts
    · cases acts
      exact ⟨.idle (by rintro _ _ ⟨⟩),knows,trivial⟩
  | free columns parent =>
    simp only [createHandler] at acts
    split at acts
    · exact refuse_looks acts
    · rename_i available
      split at acts
      · exact refuse_looks acts
      · split at acts
        · exact refuse_looks acts
        · rename_i takes
          cases acts
          rw [not_or] at available
          exact ⟨.created ⟨draw.id,mailboxId,columns.name,parent,columns.notify,columns.color,clock⟩ knows.2 available.2
            (by simpa using takes),trivial,trivial⟩
  | _ => cases acts

theorem update_looks (tables : Tables d) (knows : Knows rt d ⟨.update mailboxId folderID body,point⟩)
    (acts : updateHandler rt (.update mailboxId folderID body) mailboxId folderID body point d draw = some action) :
    Looks rt d action := by
  cases point with
  | start =>
    have placed : ∀ columns parent, Places d mailboxId body parent →
        Knows rt d ⟨.update mailboxId folderID body,.placed columns parent⟩ := fun _ _ places => places
    exact place_looks placed tables acts
  | placed columns parent =>
    simp only [updateHandler] at acts
    split at acts
    · exact refuse_looks acts
    · rename_i folderId read
      split at acts
      · exact refuse_looks acts
      · rename_i f found
        split at acts
        · exact refuse_looks acts
        · rename_i takes
          cases acts
          have hit := List.find?_some found
          simp only [decide_eq_true_eq] at hit
          obtain ⟨rfl,rfl⟩ := hit
          obtain ⟨⟨b,rfl,rfl⟩,homes⟩ := knows
          have named : Uuid.read folderID = some f.id := by
            split at read
            · cases read
            · exact read
          exact ⟨.updated columns (List.mem_of_find?_eq_some found) named homes (by simpa using takes),trivial,trivial⟩
  | _ => cases acts

theorem delete_looks (acts : deleteHandler (.delete mailboxId folderID) mailboxId folderID point d draw = some action) :
    Looks rt d action := by
  cases point with
  | start =>
    simp only [deleteHandler] at acts
    split at acts
    · cases acts
      exact ⟨.idle (by rintro _ _ ⟨⟩),trivial,trivial⟩
    · rename_i folderId read
      cases acts
      exact ⟨.emptied folderId mailboxId,trivial,trivial⟩
  | emptied =>
    simp only [deleteHandler] at acts
    split at acts
    · exact refuse_looks acts
    · rename_i folderId read
      split at acts
      · rename_i owned
        simp only [Data.owns,List.any_eq_true,decide_eq_true_eq] at owned
        obtain ⟨f,present,rfl,rfl⟩ := owned
        cases acts
        refine ⟨.deleted present ?_,trivial,trivial⟩
        split at read
        · cases read
        · exact read
      · exact refuse_looks acts
  | _ => cases acts

theorem move_looks (tables : Tables d) (knows : Knows rt d ⟨.move mailboxId messageID body,point⟩)
    (acts : messageFolderHandler rt (.move mailboxId messageID body) mailboxId messageID body point d draw = some action) :
    Looks rt d action := by
  cases point with
  | start =>
    simp only [messageFolderHandler] at acts
    split at acts
    · exact refuse_looks acts
    · rename_i b
      split at acts
      · rename_i alone
        cases acts
        exact ⟨.idle (by rintro _ _ ⟨⟩),⟨b,rfl,.inl ⟨rfl,alone,rfl⟩⟩,trivial⟩
      · rename_i folderID asked
        split at acts
        · exact refuse_looks acts
        · split at acts
          · exact refuse_looks acts
          · rename_i folderId read
            split at acts
            · rename_i owned
              cases acts
              refine ⟨.idle (by rintro _ _ ⟨⟩),⟨b,rfl,.inr ⟨folderId,rfl,?_,rfl,owned_homes tables owned⟩⟩,trivial⟩
              rw [asked]
              rfl
            · exact refuse_looks acts
  | filing folder folderId =>
    simp only [messageFolderHandler] at acts
    split at acts
    · exact refuse_looks acts
    · rename_i messageId read
      split at acts
      · exact refuse_looks acts
      · rename_i m found
        split at acts
        · exact refuse_looks acts
        · rename_i dangling
          cases acts
          have hit := List.find?_some found
          simp only [decide_eq_true_eq] at hit
          obtain ⟨rfl,rfl⟩ := hit
          have named : Uuid.read messageID = some m.id := by
            split at read
            · cases read
            · exact read
          obtain ⟨b,rfl,files⟩ := knows
          refine ⟨.moved (List.mem_of_find?_eq_some found) named ⟨b,rfl,files⟩ ?_,trivial,trivial⟩
          intro f asked
          by_contra missing
          exact dangling ⟨f,asked,missing⟩
  | _ => cases acts

theorem import_looks (acts : messageImportHandler rt (.importMessage mailboxId identity text) mailboxId identity text point d draw =
    some action) : Looks rt d action := by
  cases point with
  | start =>
    simp only [messageImportHandler] at acts
    split at acts
    · exact refuse_looks acts
    · split at acts
      · cases acts
        exact ⟨.idle (by rintro _ _ ⟨⟩; rfl),trivial,trivial⟩
      · cases acts
        exact ⟨.idle (by rintro _ _ ⟨⟩),trivial,trivial⟩
  | unknown =>
    simp only [messageImportHandler] at acts
    split at acts
    · exact refuse_looks acts
    · rename_i folder read
      split at acts
      · exact refuse_looks acts
      · rename_i conflicts
        cases acts
        have target : importFolder rt text = some folder := by
          split at read
          · cases read
          · exact read
        rw [not_or] at conflicts
        exact ⟨.imported ⟨draw.id,mailboxId,identity,folder,none⟩ target rfl conflicts.1,trivial,trivial⟩
  | _ => cases acts

theorem program_looks (tables : Tables d) (knows : Knows rt d stage)
    (acts : program rt stage began clock d draw = some action) : Looks rt d action := by
  obtain ⟨request,point⟩ := stage
  cases request with
  | create => exact create_looks tables knows acts
  | update => exact update_looks tables knows acts
  | delete => exact delete_looks acts
  | move => exact move_looks tables knows acts
  | importMessage => exact import_looks acts

-- No folder changes its id or its mailbox, and a new one has a new id.
def Keeps (d d' : Data) : Prop :=
  (∀ f ∈ d.drawn, f ∈ d'.drawn) ∧
    ∀ g ∈ d'.folders, g.id ∈ d.drawn → ∃ old ∈ d.folders, old.id = g.id ∧ old.mailboxId = g.mailboxId

theorem Homes.mono (keeps : Keeps d d') (homes : Homes d mailboxId f) : Homes d' mailboxId f := by
  refine ⟨keeps.1 f homes.1,fun g member same => ?_⟩
  obtain ⟨old,present,same',mailbox⟩ := keeps.2 g member (same ▸ homes.1)
  rw [← mailbox]
  exact homes.2 old present (same'.trans same)

theorem Knows.mono (keeps : Keeps d d') (knows : Knows rt d stage) : Knows rt d' stage := by
  have places : ∀ {mailboxId body parent}, Places d mailboxId body parent → Places d' mailboxId body parent :=
    fun places => ⟨places.1,fun p asked => (places.2 p asked).mono keeps⟩
  obtain ⟨request,point⟩ := stage
  cases request with
  | create mailboxId body =>
    cases point with
    | placed columns parent => exact places knows
    | free columns parent => exact places knows
    | _ => trivial
  | update mailboxId folderID body =>
    cases point with
    | placed columns parent => exact places knows
    | _ => trivial
  | move mailboxId messageID body =>
    cases point with
    | filing folder folderId =>
      obtain ⟨b,given,plain | ⟨f,some,asked,custom,homes⟩⟩ := knows
      · exact ⟨b,given,.inl plain⟩
      · exact ⟨b,given,.inr ⟨f,some,asked,custom,homes.mono keeps⟩⟩
    | _ => trivial
  | _ => trivial

theorem updated_folders {columns : Columns} (member : g ∈ (updateFolder columns parent folderId mailboxId d).folders) :
    ∃ old ∈ d.folders, old.id = g.id ∧ old.mailboxId = g.mailboxId := by
  obtain ⟨old,present,rfl⟩ := Table.mem_update.mp member
  refine ⟨old,present,?_⟩
  split <;> exact ⟨rfl,rfl⟩

theorem folders_updated (columns : Columns) (parent : Option Nat) (folderId mailboxId : Nat) (present : old ∈ d.folders) :
    ∃ g ∈ (updateFolder columns parent folderId mailboxId d).folders, g.id = old.id ∧ g.mailboxId = old.mailboxId := by
  refine ⟨_,Table.mem_update.mpr ⟨old,present,rfl⟩,?_⟩
  split <;> exact ⟨rfl,rfl⟩

theorem Step.keeps (step : Step rt d result d') : Keeps d d' := by
  have same : ∀ {d' : Data}, d'.folders = d.folders → d'.drawn = d.drawn → Keeps d d' := by
    intro d' folders drawn
    refine ⟨fun f member => drawn ▸ member,fun g member _ => ⟨g,folders ▸ member,rfl,rfl⟩⟩
  cases step with
  | idle | emptied | moved | imported => exact same rfl rfl
  | created row homes fresh takes =>
    refine ⟨fun f member => List.mem_cons_of_mem _ member,fun g member known => ?_⟩
    rcases List.mem_append.mp member with old | new
    · exact ⟨g,old,rfl,rfl⟩
    · cases List.mem_singleton.mp new
      exact absurd known fresh
  | updated columns present named homes takes => exact ⟨fun f member => member,fun g member _ => updated_folders member⟩
  | deleted present named => exact ⟨fun f member => member,fun g member _ => ⟨g,Forest.cascade_sublist.subset member,rfl,rfl⟩⟩

theorem Data.takes_parent (takes : d.takes rt row = true) (homes : ∀ p ∈ row.parentId, Homes d row.mailboxId p)
    (asked : p ∈ row.parentId) : ∃ g ∈ d.folders, g.id = p ∧ g.mailboxId = row.mailboxId := by
  simp only [Data.takes,decide_eq_true_eq] at takes
  obtain ⟨g,present,rfl⟩ := List.mem_map.mp (takes.2.1 p asked)
  exact ⟨g,present,rfl,(homes g.id asked).2 g present rfl⟩

theorem Tables.refiled (tables : Tables d) (folders : d'.folders = d.folders) (drawn : d'.drawn = d.drawn)
    (messages : d'.messages.map (·.id) = d.messages.map (·.id))
    (filed : ∀ m ∈ d'.messages, ∀ f ∈ m.folderId, ∃ g ∈ d.folders, g.id = f ∧ g.mailboxId = m.mailboxId) : Tables d' where
  distinct := by rw [folders]; exact tables.distinct
  drawn := by rw [folders,drawn]; exact tables.drawn
  related := by rw [folders]; exact tables.related
  filed := by rw [folders]; exact filed
  messages := by rw [messages]; exact tables.messages

theorem Tables.create (tables : Tables d) (homes : ∀ p ∈ row.parentId, Homes d row.mailboxId p) (fresh : row.id ∉ d.drawn)
    (takes : d.takes rt row = true) : Tables (insertFolder row d) where
  distinct := by
    show ((d.folders ++ [row]).map (·.id)).Nodup
    rw [List.map_append]
    refine Table.nodup_snoc tables.distinct fun member => ?_
    obtain ⟨f,present,same⟩ := List.mem_map.mp member
    dsimp only at same
    exact fresh (same ▸ tables.drawn f present)
  drawn := by
    intro f member
    rcases List.mem_append.mp member with old | new
    · exact List.mem_cons_of_mem _ (tables.drawn f old)
    · cases List.mem_singleton.mp new
      exact List.mem_cons_self
  related := by
    intro f member p asked
    rcases List.mem_append.mp member with old | new
    · obtain ⟨g,present,same⟩ := tables.related f old p asked
      exact ⟨g,List.mem_append_left _ present,same⟩
    · cases List.mem_singleton.mp new
      obtain ⟨g,present,same⟩ := Data.takes_parent takes homes asked
      exact ⟨g,List.mem_append_left _ present,same⟩
  filed := by
    intro m member f asked
    obtain ⟨g,present,same⟩ := tables.filed m member f asked
    exact ⟨g,List.mem_append_left _ present,same⟩
  messages := tables.messages

theorem Tables.update (tables : Tables d) (columns : Columns)
    (homes : ∀ p ∈ parent, Homes d f.mailboxId p) (takes : d.takes rt (columns.assign parent f) = true) :
    Tables (updateFolder columns parent f.id f.mailboxId d) where
  distinct := by
    have ids : (updateFolder columns parent f.id f.mailboxId d).folders.map (·.id) = d.folders.map (·.id) :=
      Table.column_update fun _ => rfl
    rw [ids]
    exact tables.distinct
  drawn := by
    intro g member
    obtain ⟨old,there,same,_⟩ := updated_folders member
    exact same ▸ tables.drawn old there
  related := by
    intro g member p asked
    have placed : ∃ h ∈ d.folders, h.id = p ∧ h.mailboxId = g.mailboxId := by
      obtain ⟨old,there,rfl⟩ := Table.mem_update.mp member
      split at asked
      · rename_i hit
        obtain ⟨h,found,same,mailbox⟩ := Data.takes_parent takes homes asked
        exact ⟨h,found,same,by rw [if_pos hit]; exact mailbox.trans hit.2.symm⟩
      · rename_i missed
        rw [if_neg missed]
        exact tables.related old there p asked
    obtain ⟨h,found,rfl,mailbox⟩ := placed
    obtain ⟨h',found',same,mailbox'⟩ := folders_updated columns parent f.id f.mailboxId found
    exact ⟨h',found',same,mailbox'.trans mailbox⟩
  filed := by
    intro m member x asked
    obtain ⟨h,found,rfl,mailbox⟩ := tables.filed m member x asked
    obtain ⟨h',found',same,mailbox'⟩ := folders_updated columns parent f.id f.mailboxId found
    exact ⟨h',found',same,mailbox'.trans mailbox⟩
  messages := tables.messages

theorem Tables.delete (tables : Tables d) (x : Nat) : Tables (deleteFolder x d) where
  distinct := tables.distinct.sublist (Forest.cascade_sublist.map _)
  drawn := fun f member => tables.drawn f (Forest.cascade_sublist.subset member)
  related := by
    intro f member p asked
    obtain ⟨g,left,rfl⟩ := List.mem_map.mp (Forest.cascade_attached f member p asked)
    obtain ⟨h,there,same,mailbox⟩ := tables.related f (Forest.cascade_sublist.subset member) g.id asked
    obtain rfl := Table.unique_row tables.distinct (Forest.cascade_sublist.subset left) there same.symm
    exact ⟨g,left,rfl,mailbox⟩
  filed := by
    intro m member f asked
    obtain ⟨old,present,rfl⟩ := Table.mem_update.mp member
    split at asked
    · cases asked
    · rename_i kept
      rw [if_neg kept]
      obtain ⟨h,there,rfl,mailbox⟩ := tables.filed old present f asked
      have stays : h.id ∈ (Forest.cascade Folder.id Folder.parentId x d.folders).map (·.id) := by
        by_contra gone
        exact kept ⟨h.id,asked,gone⟩
      obtain ⟨g,left,same⟩ := List.mem_map.mp stays
      obtain rfl := Table.unique_row tables.distinct (Forest.cascade_sublist.subset left) there same
      exact ⟨g,left,rfl,mailbox⟩
  messages := by
    have ids : (deleteFolder x d).messages.map (·.id) = d.messages.map (·.id) := Table.column_update fun _ => rfl
    rw [ids]
    exact tables.messages

theorem Tables.step (tables : Tables d) (step : Step rt d result d') : Tables d' := by
  cases step with
  | idle => exact tables
  | created row homes fresh takes => exact tables.create homes fresh takes
  | updated columns present named homes takes => exact tables.update columns homes takes
  | deleted present named => exact tables.delete _
  | emptied folderId mailboxId =>
    refine tables.refiled rfl rfl (Table.column_update fun _ => rfl) ?_
    intro m member f asked
    obtain ⟨old,present,rfl⟩ := Table.mem_update.mp member
    split at asked
    · cases asked
    · rename_i missed
      rw [if_neg missed]
      exact tables.filed old present f asked
  | moved present named files there =>
    refine tables.refiled rfl rfl (Table.column_update fun _ => rfl) ?_
    intro m member f asked
    obtain ⟨old,present',rfl⟩ := Table.mem_update.mp member
    split at asked
    · rename_i hit
      rw [if_pos hit]
      obtain ⟨b,_,⟨rfl,_⟩ | ⟨x,rfl,_,_,homes⟩⟩ := files
      · cases asked
      · cases asked
        obtain ⟨g,found,rfl⟩ := List.mem_map.mp (there f rfl)
        exact ⟨g,found,rfl,(homes.2 g found rfl).trans hit.2.symm⟩
    · rename_i missed
      rw [if_neg missed]
      exact tables.filed old present' f asked
  | imported row target unfiled fresh =>
    refine ⟨tables.distinct,tables.drawn,tables.related,?_,?_⟩
    · intro m member f asked
      rcases List.mem_append.mp member with old | new
      · exact tables.filed m old f asked
      · cases List.mem_singleton.mp new
        rw [unfiled] at asked
        cases asked
    · show ((d.messages ++ [row]).map (·.id)).Nodup
      rw [List.map_append]
      exact Table.nodup_snoc tables.messages fresh

structure Consistent (rt : Runtime) (s : State) : Prop where
  unwritten : Unwritten s
  tables : Tables s.data
  knows : ∀ session ∈ s.sessions, Knows rt s.data session.stage

theorem Consistent.begin (rt : Runtime) (clock : Nat) : Consistent rt (start clock) where
  unwritten := fun _ none => absurd none List.not_mem_nil
  tables := ⟨List.nodup_nil,fun _ none => absurd none List.not_mem_nil,fun _ none => absurd none List.not_mem_nil,
    fun _ none => absurd none List.not_mem_nil,List.nodup_nil⟩
  knows := fun _ none => absurd none List.not_mem_nil

theorem Consistent.advance {s t : State} (consistent : Consistent rt s) (taken : advance rt s e = some t) :
    Step rt s.data (answered rt s e) t.data ∧ Consistent rt t := by
  rcases advance_cases taken with ⟨request,rfl,rfl⟩ | ⟨k,draw,session,action,rfl,found,acts,_,rfl⟩
  · refine ⟨.idle (by rintro _ _ ⟨⟩),consistent.unwritten.arrive _ _,consistent.tables,?_⟩
    · intro session member
      rcases List.mem_append.mp member with old | new
      · exact consistent.knows session old
      · cases List.mem_singleton.mp new
        cases request <;> trivial
  · have member := List.mem_of_getElem? found
    have view := consistent.unwritten session member
    have reached : answered rt s (.step k draw) = action.next.answered := by simp [answered,found,acts]
    rw [view] at acts
    obtain ⟨step,next,passive⟩ := program_looks consistent.tables (consistent.knows session member) acts
    rw [reached,Action.data_effect view]
    refine ⟨step,consistent.unwritten.action member passive k s.clock,consistent.tables.step step,?_⟩
    · intro other there
      rcases List.mem_or_eq_of_mem_set there with old | rfl
      · exact (consistent.knows other old).mono step.keeps
      · rw [Action.session_next]
        exact next

-- The parents form no cycle, and each is a folder of the same mailbox.
structure Tidy (d : Data) : Prop where
  acyclic : Forest.Acyclic Folder.id Folder.parentId d.folders
  related : ∀ f ∈ d.folders, ∀ p ∈ f.parentId, ∃ g ∈ d.folders, g.id = p ∧ g.mailboxId = f.mailboxId

-- The parent an UPDATE gives a folder is neither the folder itself nor below it.
def Above (d : Data) : Option (Request × Reply) → Prop
  | some (.update _ folderID (some body),.updated _) =>
    ∀ f ∈ Uuid.read folderID, ∀ p ∈ body.parent, p ∉ Forest.subtree Folder.id Folder.parentId f d.folders
  | _ => True

instance (d : Data) (result : Option (Request × Reply)) : Decidable (Above d result) := by
  unfold Above
  split <;> infer_instance

theorem Tables.attached (tables : Tables d) : Forest.Attached Folder.id Folder.parentId d.folders := by
  intro f member p asked
  obtain ⟨g,there,rfl,_⟩ := tables.related f member p asked
  exact List.mem_map_of_mem there

theorem create_acyclic (tables : Tables d) (acyclic : Forest.Acyclic Folder.id Folder.parentId d.folders)
    (fresh : row.id ∉ d.drawn) (takes : d.takes rt row = true) :
    Forest.Acyclic Folder.id Folder.parentId (insertFolder row d).folders := by
  have unknown : row.id ∉ d.folders.map (·.id) := by
    intro member
    obtain ⟨f,there,same⟩ := List.mem_map.mp member
    exact fresh (same ▸ tables.drawn f there)
  have edges : ∀ a b, Forest.Edge Folder.id Folder.parentId (insertFolder row d).folders a b →
      Forest.Edge Folder.id Folder.parentId d.folders a b ∨ (a = row.id ∧ row.parentId = some b) := by
    rintro a b ⟨f,member,rfl,points⟩
    rcases List.mem_append.mp member with old | new
    · exact .inl ⟨f,old,rfl,points⟩
    · cases List.mem_singleton.mp new
      exact .inr ⟨rfl,points⟩
  cases given : row.parentId with
  | none =>
    refine acyclic.mono fun a b edge => ?_
    rcases edges a b edge with old | ⟨_,points⟩
    · exact old
    · rw [given] at points
      cases points
  | some p =>
    simp only [Data.takes,decide_eq_true_eq] at takes
    have known : p ∈ d.folders.map (·.id) := takes.2.1 p given
    refine acyclic.redirect (x:=row.id) (y:=p) ?_ ?_
    · intro a b edge
      rcases edges a b edge with old | ⟨same,points⟩
      · exact .inl old
      · rw [given] at points
        exact .inr ⟨same,(Option.some.inj points).symm⟩
    · intro path
      rcases Forest.reaches_known tables.attached path with same | member
      · exact unknown (same ▸ known)
      · exact unknown member

theorem update_acyclic (tables : Tables d) (acyclic : Forest.Acyclic Folder.id Folder.parentId d.folders)
    {columns : Columns} (present : f ∈ d.folders) (takes : d.takes rt (columns.assign parent f) = true) :
    Forest.Acyclic Folder.id Folder.parentId (updateFolder columns parent f.id f.mailboxId d).folders ↔
      ∀ p ∈ parent, p ∉ Forest.subtree Folder.id Folder.parentId f.id d.folders := by
  have edges : ∀ a b, Forest.Edge Folder.id Folder.parentId (updateFolder columns parent f.id f.mailboxId d).folders a b →
      Forest.Edge Folder.id Folder.parentId d.folders a b ∨ (a = f.id ∧ parent = some b) := by
    rintro a b ⟨g,member,rfl,points⟩
    obtain ⟨old,there,rfl⟩ := Table.mem_update.mp member
    split at points
    · rename_i hit
      rw [if_pos hit]
      exact .inr ⟨hit.1,points⟩
    · rename_i missed
      rw [if_neg missed]
      exact .inl ⟨old,there,rfl,points⟩
  have kept : ∀ a b, Forest.Edge Folder.id Folder.parentId d.folders a b → a ≠ f.id →
      Forest.Edge Folder.id Folder.parentId (updateFolder columns parent f.id f.mailboxId d).folders a b := by
    rintro a b ⟨old,there,rfl,points⟩ other
    exact ⟨old,Table.mem_update.mpr ⟨old,there,if_neg fun hit => other hit.1⟩,rfl,points⟩
  have assigned : columns.assign parent f ∈ (updateFolder columns parent f.id f.mailboxId d).folders :=
    Table.mem_update.mpr ⟨f,present,if_pos ⟨rfl,rfl⟩⟩
  constructor
  · rintro after p rfl below
    have path := ((Forest.subtree_iff tables.distinct tables.attached).mp below).2
    exact Forest.cycle_redirect kept ⟨_,assigned,rfl,rfl⟩ path after
  · intro clear
    cases parent with
    | none =>
      refine acyclic.mono fun a b edge => ?_
      rcases edges a b edge with old | ⟨_,none⟩
      · exact old
      · cases none
    | some p =>
      simp only [Data.takes,decide_eq_true_eq] at takes
      have known : p ∈ d.folders.map (·.id) := takes.2.1 p rfl
      refine acyclic.redirect (x:=f.id) (y:=p) ?_ ?_
      · intro a b edge
        rcases edges a b edge with old | ⟨same,points⟩
        · exact .inl old
        · exact .inr ⟨same,(Option.some.inj points).symm⟩
      · intro path
        exact clear p rfl ((Forest.subtree_iff tables.distinct tables.attached).mpr ⟨known,path⟩)

-- Only an UPDATE can close a cycle, and it does so exactly with a parent from below.
theorem Step.acyclic (tables : Tables d) (acyclic : Forest.Acyclic Folder.id Folder.parentId d.folders)
    (step : Step rt d result d') : Forest.Acyclic Folder.id Folder.parentId d'.folders ↔ Above d result := by
  cases step with
  | idle quiet =>
    refine iff_of_true acyclic ?_
    unfold Above
    split
    · exact absurd (quiet _ _ rfl) (by simp [Reply.quiet])
    · trivial
  | created row homes fresh takes => exact iff_of_true (create_acyclic tables acyclic fresh takes) trivial
  | updated columns present named homes takes =>
    rw [update_acyclic tables acyclic present takes]
    simp only [Above,named,Option.mem_def,Option.some.injEq,forall_eq']
  | emptied | moved | imported => exact iff_of_true acyclic trivial
  | deleted present named =>
    refine iff_of_true (acyclic.mono ?_) trivial
    rintro a b ⟨g,left,rfl,points⟩
    exact ⟨g,Forest.cascade_sublist.subset left,rfl,points⟩

theorem tidy_exactly (path : Runs (advance rt) (start clock) trace last) :
    States (fun s => Tidy s.data) trace last ↔ Throughout (fun s e => Above s.data (answered rt s e)) trace := by
  have keeps : ∀ s e t, Consistent rt s → advance rt s e = some t → Consistent rt t :=
    fun s e t consistent taken => (consistent.advance taken).2
  refine path.exactly keeps ?_ (Consistent.begin rt clock) ?_
  · intro s e t consistent tidy taken
    obtain ⟨step,after⟩ := consistent.advance taken
    rw [← step.acyclic consistent.tables tidy.acyclic]
    exact ⟨fun good => good.acyclic,fun acyclic => ⟨acyclic,after.tables.related⟩⟩
  · refine ⟨?_,(Consistent.begin rt clock).tables.related⟩
    intro x cycle
    obtain ⟨_,⟨f,none,_⟩,_⟩ := Relation.TransGen.head'_iff.mp cycle
    cases none

-- uuid.Parse and ToLower on what the runs below send.
def plain : Runtime := ⟨fun _ => true,id⟩

def draws (k id : Nat) : Event := .step k ⟨false,id⟩

def put (folderID name : String) (parentID : Option String) : Request := .update 7 folderID (some ⟨name,parentID,none,none⟩)

theorem tidy_exactly_nested : ∃ trace last, Runs (advance plain) (start 0) trace last ∧
    (last.data.folders.map fun f => (f.id,f.parentId)) = [(1,some 2),(2,none)] ∧ States (fun s => Tidy s.data) trace last := by
  obtain ⟨trace,last,path,allowed,folders⟩ : ∃ trace last, Runs (advance plain) (start 0) trace last ∧
      Throughout (fun s e => Above s.data (answered plain s e)) trace ∧
      (last.data.folders.map fun f => (f.id,f.parentId)) = [(1,some 2),(2,none)] := follow_ends
    [.arrive (.create 7 (some ⟨"work",none,none,none⟩)),draws 0 0,draws 0 0,draws 0 1,
      .arrive (.create 7 (some ⟨"old",none,none,none⟩)),draws 1 0,draws 1 0,draws 1 2,
      .arrive (put "00000000-0000-0000-0000-000000000001" "work" (some "00000000-0000-0000-0000-000000000002")),draws 2 0,draws 2 0]
    (by decide +kernel)
  exact ⟨trace,last,path,folders,(tidy_exactly path).mpr allowed⟩

-- The string comparison misses the folder's own id in capitals.
theorem folder_in_itself : ∃ trace last, Runs (advance plain) (start 0) trace last ∧ ¬Tidy last.data := by
  obtain ⟨trace,last,path,f,present,own⟩ : ∃ trace last, Runs (advance plain) (start 0) trace last ∧
      ∃ f ∈ last.data.folders, f.parentId = some f.id := follow_ends
    [.arrive (.create 7 (some ⟨"work",none,none,none⟩)),draws 0 0,draws 0 0,draws 0 10,
      .arrive (put "00000000-0000-0000-0000-00000000000a" "work" (some "00000000-0000-0000-0000-00000000000A")),draws 1 0,draws 1 0]
    (by decide +kernel)
  refine ⟨trace,last,path,fun tidy => tidy.acyclic f.id (.single ⟨f,present,rfl,own⟩)⟩

end ByosMail.Folders
