import ByosMail.FolderTrees

-- The two columns that say where a message is filed, and the list of apps/webmail/src/App.tsx
-- that shows it.
namespace ByosMail.Folders
open Machine Transactions

inductive View where
  | custom (folderId : Nat)
  | current (folder : String)

def Message.display (sent : Bool) (m : Message) : String :=
  if m.folder = "custom" then "inbox" else if m.folder = "" then (if sent then "sent" else "inbox") else m.folder

-- filteredMessages without a label or a search.
def View.matchFolder (sent : Bool) (m : Message) : View → Prop
  | .custom folderId => m.folderId = some folderId ∧ m.display sent ≠ "trash"
  | .current folder =>
    if folder = "inbox" then m.folderId = none ∧ (m.display sent = "" ∨ m.display sent = "inbox") else m.display sent = folder

def Message.Marked (m : Message) : Prop := m.folder = "custom" ↔ m.folderId.isSome = true

instance (m : Message) : Decidable m.Marked := inferInstanceAs (Decidable (_ ↔ _))

structure Filed (d : Data) (m : Message) : Prop where
  marked : m.Marked
  named : ∀ f ∈ m.folderId, ∃ g ∈ d.folders, g.id = f ∧ g.mailboxId = m.mailboxId
  listed : ∀ sent, ∃! view : View, view.matchFolder sent m

-- Filing without a folder id goes to a name other than custom, and a deleted folder takes no
-- message along, its own or one of the folders below it.
def Marks (rt : Runtime) (d : Data) : Option (Request × Reply) → Prop
  | some (.move _ _ (some body),.moved _) => given body.folderId = none → body.target rt ≠ "custom"
  | some (.importMessage _ _ folder,.imported _) => ∀ name ∈ importFolder rt folder, name ≠ "custom"
  | some (.delete _ folderID,.deleted) =>
    ∀ x ∈ Uuid.read folderID, ∀ m ∈ d.messages, ∀ f ∈ m.folderId, f ∉ Forest.subtree Folder.id Folder.parentId x d.folders
  | _ => True

instance (rt : Runtime) (d : Data) : DecidablePred (Marks rt d) := fun
  | some (.move _ _ (some body),.moved _) => inferInstanceAs (Decidable (given body.folderId = none → _))
  | some (.importMessage _ _ folder,.imported _) => inferInstanceAs (Decidable (∀ name ∈ importFolder rt folder, _))
  | some (.delete _ folderID,.deleted) => inferInstanceAs (Decidable (∀ x ∈ Uuid.read folderID, _))
  | none | some (.create ..,_) | some (.update ..,_) | some (.move _ _ none,_) => .isTrue trivial
  | some (.move _ _ (some _),.error ..) | some (.move _ _ (some _),.created _) | some (.move _ _ (some _),.updated _) |
    some (.move _ _ (some _),.deleted) | some (.move _ _ (some _),.imported _) |
    some (.move _ _ (some _),.alreadyImported _) => .isTrue trivial
  | some (.importMessage ..,.error ..) | some (.importMessage ..,.created _) | some (.importMessage ..,.updated _) |
    some (.importMessage ..,.deleted) | some (.importMessage ..,.moved _) |
    some (.importMessage ..,.alreadyImported _) => .isTrue trivial
  | some (.delete ..,.error ..) | some (.delete ..,.created _) | some (.delete ..,.updated _) | some (.delete ..,.moved _) |
    some (.delete ..,.imported _) | some (.delete ..,.alreadyImported _) => .isTrue trivial

-- One UPDATE leaves the rows marked exactly when it leaves those it hits so.
theorem update_marked {hits : Message → Prop} [DecidablePred hits] {set : Message → Message} {rows : List Message}
    (marked : ∀ m ∈ rows, m.Marked) :
    (∀ m ∈ Table.update hits set rows, m.Marked) ↔ ∀ m ∈ rows, hits m → (set m).Marked := by
  constructor
  · intro after m member hit
    have there : (if hits m then set m else m) ∈ Table.update hits set rows := Table.mem_update.mpr ⟨m,member,rfl⟩
    rw [if_pos hit] at there
    exact after _ there
  · intro assigned m member
    obtain ⟨old,present,rfl⟩ := Table.mem_update.mp member
    split
    · rename_i hit
      exact assigned old present hit
    · exact marked old present

theorem delete_marked (tables : Tables d) (marked : ∀ m ∈ d.messages, m.Marked) (x : Nat) :
    (∀ m ∈ (deleteFolder x d).messages, m.Marked) ↔
      ∀ m ∈ d.messages, ∀ f ∈ m.folderId, f ∉ Forest.subtree Folder.id Folder.parentId x d.folders := by
  have below : ∀ m ∈ d.messages, ∀ f ∈ m.folderId, (f ∈ Forest.subtree Folder.id Folder.parentId x d.folders ↔
      f ∉ (Forest.cascade Folder.id Folder.parentId x d.folders).map (·.id)) := by
    intro m member f filed
    obtain ⟨g,there,rfl,_⟩ := tables.filed m member f filed
    simp only [Forest.subtree,List.mem_filter,decide_eq_true_eq]
    exact and_iff_right (List.mem_map_of_mem there)
  rw [deleteFolder,update_marked marked]
  constructor
  · intro assigned m member f filed taken
    have custom : m.folder = "custom" := (marked m member).mpr (by rw [filed]; rfl)
    exact absurd ((assigned m member ⟨f,filed,(below m member f filed).mp taken⟩).mp custom) (by simp)
  · rintro clear m member ⟨f,filed,gone⟩
    exact absurd ((below m member f filed).mpr gone) (clear m member f filed)

theorem Step.marked (tables : Tables d) (marked : ∀ m ∈ d.messages, m.Marked) (step : Step rt d result d') :
    (∀ m ∈ d'.messages, m.Marked) ↔ Marks rt d result := by
  cases step with
  | idle quiet =>
    refine iff_of_true marked ?_
    unfold Marks
    split <;> first | trivial | exact absurd (quiet _ _ rfl) (by simp [Reply.quiet])
  | created | updated => exact iff_of_true marked trivial
  | emptied folderId mailboxId =>
    refine iff_of_true ?_ trivial
    rw [emptyFolder,update_marked marked]
    intro m member hit
    simp [Message.Marked]
  | deleted present named =>
    rw [delete_marked tables marked]
    simp only [Marks,named,Option.mem_def,Option.some.injEq,forall_eq']
  | moved present named files there =>
    rw [fileMessage,update_marked marked]
    obtain ⟨b,same,⟨rfl,alone,rfl⟩ | ⟨f,rfl,asked,rfl,_⟩⟩ := files
    · cases same
      simp only [Marks,alone,forall_const,Message.Marked,Option.isSome_none]
      constructor
      · intro assigned custom
        exact absurd ((assigned _ present ⟨rfl,rfl⟩).mp custom) (by decide)
      · intro other m member hit
        exact iff_of_false other (by decide)
    · cases same
      refine iff_of_true (fun m member hit => ?_) ?_
      · exact iff_of_true rfl rfl
      · intro alone
        rw [alone] at asked
        cases asked
  | imported row target unfiled fresh =>
    simp only [Marks,target,insertMessage,List.mem_append,List.mem_singleton,or_imp,forall_and,forall_eq]
    simp only [Option.mem_def,Option.some.injEq,forall_eq']
    refine ⟨fun after custom => ?_,fun other => ⟨marked,?_⟩⟩
    · have some := after.2.mp custom
      rw [unfiled] at some
      cases some
    · refine iff_of_false other ?_
      rw [unfiled]
      decide

def folder (n : Nat) (name : String) (parentID : Option String) : List Event :=
  [.arrive (.create 7 (some ⟨name,parentID,none,none⟩)),draws n 0,draws n 0,draws n (n + 1)]

def nested : List Event :=
  folder 0 "work" none ++ folder 1 "old" (some "00000000-0000-0000-0000-000000000001") ++
    [.arrive (.importMessage 7 [1] "inbox"),draws 2 0,draws 2 3,
      .arrive (.move 7 "00000000-0000-0000-0000-000000000003"
        (some ⟨none,some "00000000-0000-0000-0000-000000000002"⟩)),draws 3 0,draws 3 0]

end ByosMail.Folders
