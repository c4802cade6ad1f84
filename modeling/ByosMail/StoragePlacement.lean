import Mathlib.Data.List.TakeWhile
import ByosMail.MailDelivery
import ByosMail.StorageProviders

-- Where the router's store request writes a message, and where the API's retrieve
-- request for the same message looks.
namespace ByosMail.StorageWorker
open GoText MailRouter StorageProviders

-- An inbound message, as processRecipient stores it.
structure Inbound where
  route : RouteRow
  seq : Nat
  ciphertext : List UInt8

def Inbound.store (m : Inbound) : StoreRequest := storeCiphertext (storageObjectID m.route m.seq) m.ciphertext

def Inbound.load (m : Inbound) : RetrieveRequest :=
  loadEncryptedMessageBody (storageObjectID m.route m.seq) m.route.mailboxId

section
variable (services : Services) (env : Env)

-- storeHandler: whether the store is acknowledged, with what it leaves behind.
def storeHandler (contents : Contents) (req : StoreRequest) (fault : Fault) : Bool × Contents :=
  match storeTarget env req with
  | .ok location => storeAt services contents location req.data fault
  | .error _ => (false,contents)

def storeAll (contents : Contents) (messages : List (Inbound × Fault)) : Contents :=
  messages.foldl (fun contents m => (storeHandler services env contents m.1.store m.2).2) contents

end

def Env.reaching (env : Env) (connects reconnects : Bool) : Env := {env with connects:=connects,reconnects:=reconnects}

section
variable (services : Services) (env reader : Env)

-- The message is looked up where it was written, and read back as it was written whatever
-- else the router has stored since.
structure ReadBack (contents : Contents) (m : Inbound) : Prop where
  same : ∃ written looked, storeTarget env m.store = .ok written ∧ retrieveTarget reader m.load = .ok looked ∧
    readPlace services looked.storage looked.bucket looked.objectKey = some (locate services written)
  kept : ∀ later, (∀ n ∈ later, n.1.seq ≤ maxSeq ∧ n.1.seq ≠ m.seq) → ∀ order,
    retrieveHandler reader (objectsIn services order (storeAll services env contents later)) m.load = .ok m.ciphertext

-- The place of the message on the default storage, where the router's request has it written.
def home (m : Inbound) (default : Storage) : Place := place services default env.defaultBucket (trimSpace (storageObjectID m.route m.seq))

end

-- The client and bucket of a mailbox: the worker's own where it has no mapping that the worker
-- can see, otherwise what the connection it is mapped to configures.
def Resolves (env : Env) (mailboxID : String) (storage : Storage) (bucket : String) : Prop :=
  ((mailboxID = "" ∨ env.connects = false ∨ env.mailboxStorage mailboxID = none) ∧
    env.defaultStorage = some storage ∧ env.defaultBucket = bucket) ∨
  ∃ connectionID row config, mailboxID ≠ "" ∧ env.connects = true ∧ env.mailboxStorage mailboxID = some connectionID ∧
    env.reconnects = true ∧ env.connections connectionID = some row ∧ row.openedConfig env = .ok config ∧
    storageFromConfig env row.provider config = .ok storage ∧
    firstNonEmpty (config.text "bucket") row.bucketName env.defaultBucket = bucket

-- The mailbox's client finds the untrimmed key where the default one put the trimmed key: on
-- the same server and bucket, in the same account, or in the same file.
def Serves (services : Services) (env reader : Env) (m : Inbound) (default : Storage) : Prop :=
  ∃ storage bucket, Resolves reader m.route.mailboxId storage bucket ∧
    readPlace services storage bucket (storageObjectID m.route m.seq) = some (home services env m default)

-- No message of another number is stored in the same place.
def Alone (services : Services) (env : Env) (m : Inbound) (default : Storage) : Prop :=
  ∀ n : Inbound, n.seq ≤ maxSeq → n.seq ≠ m.seq → ∀ location, storeTarget env n.store = .ok location →
    locate services location ≠ home services env m default

-- What an upload to Drive asks for: the key carries no other bytes, and the upload arrives whole.
def Clear (services : Services) (env : Env) (contents : Contents) (m : Inbound) (default : Storage) : Prop :=
  replaces (home services env m default) = false →
    Free contents (home services env m default) m.ciphertext ∧ GoogleDrive.Whole m.ciphertext

-- The mailbox has no mapping the worker can see, or it is mapped to a usable connection
-- whose configuration is the default storage and bucket over again.
def DefaultServes (env : Env) (mailboxID : String) : Prop :=
  mailboxID = "" ∨ env.connects = false ∨ env.mailboxStorage mailboxID = none ∨
  ∃ connectionID row config storage, env.mailboxStorage mailboxID = some connectionID ∧ env.reconnects = true ∧
    env.connections connectionID = some row ∧ row.openedConfig env = .ok config ∧
    env.defaultStorage = some storage ∧ storageFromConfig env row.provider config = .ok storage ∧
    firstNonEmpty (config.text "bucket") row.bucketName env.defaultBucket = env.defaultBucket

def NoLeadingSpace (text : String) : Prop := ∀ c ∈ text.toList.head?, isSpace c = false

theorem trimWith_eq_dropWhile (kept : cut last = false) :
    trimWith cut (text ++ [last]) = (text ++ [last]).dropWhile cut := by
  have whole : (text ++ [last]).dropWhile cut = text.dropWhile cut ++ [last] := by
    rw [List.dropWhile_append]
    split
    · rename_i empty
      rw [List.isEmpty_iff.mp empty,List.dropWhile_cons_of_neg (by simp [kept])]
      rfl
    · rfl
  simp [trimWith,whole,kept]

theorem dropWhile_eq_self {cut : Char → Bool} {text : List Char} :
    text.dropWhile cut = text ↔ ∀ c ∈ text.head?, cut c = false := by
  cases text with
  | nil => simp
  | cons c rest => simp [List.dropWhile_eq_self_iff]

theorem objectPrefix_nonempty (route : RouteRow) : (objectPrefix route).toList ≠ [] := by
  simp only [objectPrefix]
  split
  · simp
  · simpa using ‹_›

theorem storageObjectID_chars (route : RouteRow) (seq : Nat) : (storageObjectID route seq).toList =
    ((objectPrefix route).toList ++ '/' :: (Bytes.decimal 20 seq ++ ".eml.en".toList)) ++ ['c'] := by
  simp [storageObjectID]

theorem trimmed_chars (route : RouteRow) (seq : Nat) :
    (trimSpace (storageObjectID route seq)).toList = (storageObjectID route seq).toList.dropWhile isSpace := by
  rw [trimSpace,String.toList_ofList,storageObjectID_chars,trimWith_eq_dropWhile (by decide)]

theorem key_untrimmed_iff (route : RouteRow) (seq : Nat) :
    trimSpace (storageObjectID route seq) = storageObjectID route seq ↔ NoLeadingSpace (objectPrefix route) := by
  obtain ⟨first,rest,start⟩ := List.exists_cons_of_ne_nil (objectPrefix_nonempty route)
  rw [← String.toList_inj,trimmed_chars,dropWhile_eq_self,storageObjectID_chars]
  simp [NoLeadingSpace,start]

-- Trimming cuts into the prefix only, never into the sequence number.
theorem trimmed_suffix (route : RouteRow) (seq : Nat) :
    ∃ front, (trimSpace (storageObjectID route seq)).toList =
      front ++ (Bytes.decimal 20 seq ++ ".eml.enc".toList) := by
  rw [trimmed_chars]
  simp only [storageObjectID,String.toList_append,String.toList_ofList]
  have slash : ('/' :: Bytes.decimal 20 seq ++ ".eml.enc".toList).dropWhile isSpace =
      '/' :: Bytes.decimal 20 seq ++ ".eml.enc".toList := List.dropWhile_cons_of_neg (by decide)
  rw [List.dropWhile_append,slash]
  split
  · exact ⟨['/'],List.singleton_append.symm⟩
  · refine ⟨(objectPrefix route).toList.dropWhile isSpace ++ ['/'],?_⟩
    rw [List.append_assoc,List.singleton_append,List.cons_append]

theorem trimmed_injective (small : seq ≤ maxSeq) (small' : seq' ≤ maxSeq)
    (equal : trimSpace (storageObjectID route seq) = trimSpace (storageObjectID route' seq')) : seq = seq' := by
  obtain ⟨front,whole⟩ := trimmed_suffix route seq
  obtain ⟨front',whole'⟩ := trimmed_suffix route' seq'
  rw [equal,whole'] at whole
  have suffix := (List.append_inj' whole (by simp [Bytes.decimal])).2
  have numerals := (List.append_inj suffix (by simp [Bytes.decimal])).1
  unfold maxSeq at small small'
  exact (Bytes.decimal_injective (by omega) (by omega) numerals).symm

theorem storeTarget_default (accepted : storeTarget env (storeCiphertext objectKey ciphertext) = .ok target) :
    ∃ storage, env.defaultStorage = some storage ∧ target = ⟨storage,env.defaultBucket,trimSpace objectKey⟩ := by
  have unmapped : getStorageForMailbox env (storeCiphertext objectKey ciphertext).mailboxID = .ok (env.defaultStorage,env.defaultBucket) :=
    if_pos rfl
  simp only [storeTarget,unmapped] at accepted
  split at accepted
  · cases accepted
  split at accepted
  · cases accepted
  split at accepted
  · cases accepted
  split at accepted
  · cases accepted
  cases default : env.defaultStorage with
  | none => simp [default] at accepted
  | some storage =>
    simp only [default,Except.ok.injEq] at accepted
    exact ⟨storage,rfl,accepted.symm⟩

theorem retrieveTarget_iff {m : Inbound} :
    retrieveTarget env m.load = .ok ⟨storage,bucket,key⟩ ↔
      getStorageForMailbox env m.route.mailboxId = .ok (some storage,bucket) ∧ storageObjectID m.route m.seq = key := by
  simp only [retrieveTarget,Inbound.load,loadEncryptedMessageBody]
  rcases getStorageForMailbox env m.route.mailboxId with _ | ⟨_ | _,_⟩ <;> simp [and_assoc]

theorem connection_storage_iff {row : ConnectionRow} :
    row.storage env = .ok (some storage,bucket) ↔ ∃ config, row.openedConfig env = .ok config ∧
      storageFromConfig env row.provider config = .ok storage ∧
      firstNonEmpty (config.text "bucket") row.bucketName env.defaultBucket = bucket := by
  simp only [ConnectionRow.storage,bind,Except.bind]
  cases opened : row.openedConfig env with
  | error e => simp
  | ok config =>
    cases built : storageFromConfig env row.provider config with
    | error e => simp [built]
    | ok storage => simp [built,pure,Except.pure]

theorem getStorageForMailbox_iff (env : Env) (mailboxID : String) (default : env.defaultStorage = some storage) :
    getStorageForMailbox env mailboxID = .ok (some storage,env.defaultBucket) ↔ DefaultServes env mailboxID := by
  unfold getStorageForMailbox DefaultServes
  split
  · simp_all
  split
  · simp_all
  cases mapping : env.mailboxStorage mailboxID with
  | none => simp [default]
  | some connectionID =>
    simp only [getStorageForConnection]
    split
    · simp_all
    cases found : env.connections connectionID with
    | none => simp_all
    | some row => simp_all [connection_storage_iff]

theorem getStorageForMailbox_resolves : getStorageForMailbox env mailboxID = .ok (some storage,bucket) ↔ Resolves env mailboxID storage bucket := by
  unfold getStorageForMailbox Resolves
  by_cases unnamed : mailboxID = ""
  · simp [unnamed]
  cases env.connects with
  | false => simp [unnamed]
  | true =>
    cases mapping : env.mailboxStorage mailboxID with
    | none => simp [unnamed]
    | some connectionID =>
      simp only [getStorageForConnection]
      cases env.reconnects with
      | false => simp [unnamed]
      | true =>
        cases found : env.connections connectionID with
        | none => simp [unnamed,found]
        | some row => simp [unnamed,found,connection_storage_iff]

section
variable {services : Services} {env reader : Env} {before contents : Contents} {m : Inbound} {default : Storage}

theorem storeTarget_data (accepted : storeTarget env ⟨objectKey,data,mailboxID⟩ = .ok location) (short : data'.length ≤ maxStoreObjectSize) :
    storeTarget env ⟨objectKey,data',mailboxID⟩ = .ok location := by
  have fits : ¬data'.length > maxStoreObjectSize := Nat.not_lt.mpr short
  unfold storeTarget at accepted ⊢
  dsimp only at accepted ⊢
  by_cases large : data.length > maxStoreObjectSize
  · rw [if_pos large] at accepted
    split at accepted
    · cases accepted
    · split at accepted
      · cases accepted
      · cases accepted
  · rw [if_neg large] at accepted
    rw [if_neg fits]
    exact accepted

theorem storeHandler_default {n : Inbound} (configured : env.defaultStorage = some default)
    (stored : storeTarget env n.store = .ok location) (contents : Contents) (fault : Fault) :
    location = ⟨default,env.defaultBucket,trimSpace (storageObjectID n.route n.seq)⟩ ∧
      storeHandler services env contents n.store fault =
        putObject services contents default env.defaultBucket location.objectKey n.ciphertext n.ciphertext.length fault := by
  obtain ⟨storage,known,rfl⟩ := storeTarget_default stored
  obtain rfl : default = storage := Option.some.inj (configured.symm.trans known)
  refine ⟨rfl,?_⟩
  rw [storeHandler,stored]
  rfl

theorem storeAll_keeps (alone : Alone services env m default) (contents : Contents) {later : List (Inbound × Fault)}
    (others : ∀ n ∈ later, n.1.seq ≤ maxSeq ∧ n.1.seq ≠ m.seq) :
    held (storeAll services env contents later) (home services env m default) = held contents (home services env m default) := by
  induction later generalizing contents with
  | nil => rfl
  | cons n later ih =>
    obtain ⟨small,different⟩ := others n List.mem_cons_self
    rw [storeAll,List.foldl_cons,← storeAll,ih _ fun n member => others n (List.mem_cons_of_mem _ member)]
    unfold storeHandler
    cases stored : storeTarget env n.1.store with
    | error e => rfl
    | ok location => exact putObject_other (alone n.1 small different location stored)

theorem retrieve_at (looked : retrieveTarget reader m.load = .ok location)
    (there : readPlace services location.storage location.bucket location.objectKey = some p) (order : Order) (contents : Contents) :
    retrieveHandler reader (objectsIn services order contents) m.load = .ok data ↔ find order contents p = some data := by
  have found : objectsIn services order contents location = find order contents p := by
    rw [objectsIn,getObject,there]
    rfl
  simp only [retrieveHandler,looked,bind,Except.bind,found]
  cases find order contents p <;> simp

-- An upload leaves what was uploaded, unless Drive cuts it at a boundary.
theorem leaves_whole (services : Services) (storage : Storage) (bucket key : String) (data : List UInt8) (arrives : replaces (place services storage bucket key) = false →
    GoogleDrive.Whole data) : leaves storage key data data.length .none = some data := by
  cases storage with
  | s3 => exact if_pos rfl
  | mockDrive => rfl
  | googleDrive accessToken folderID => exact (if_pos rfl).trans (uploaded_whole (arrives rfl) folderID key)

theorem acknowledged_write (acknowledged : storeHandler services env before m.store fault = (true,contents)) :
    ∃ default left, env.defaultStorage = some default ∧
      storeTarget env m.store = .ok ⟨default,env.defaultBucket,trimSpace (storageObjectID m.route m.seq)⟩ ∧
      leaves default (trimSpace (storageObjectID m.route m.seq)) m.ciphertext m.ciphertext.length .none = some left ∧
      contents = write before (home services env m default) left := by
  cases stored : storeTarget env m.store with
  | error e =>
    rw [storeHandler,stored] at acknowledged
    cases acknowledged
  | ok location =>
    obtain ⟨storage,configured,rfl⟩ := storeTarget_default stored
    rw [storeHandler,stored] at acknowledged
    obtain ⟨rfl,left,found,rfl⟩ := putObject_ok acknowledged
    exact ⟨storage,left,configured,rfl,found,rfl⟩

theorem only_of_clear (clear : Clear services env before m default)
    (left : leaves default (trimSpace (storageObjectID m.route m.seq)) m.ciphertext m.ciphertext.length .none = some data) :
    Only (write before (home services env m default) data) (home services env m default) m.ciphertext := by
  have whole := leaves_whole services default env.defaultBucket (trimSpace (storageObjectID m.route m.seq)) m.ciphertext
    fun added => (clear added).2
  obtain rfl : m.ciphertext = data := Option.some.inj (whole.symm.trans left)
  refine write_only ?_
  cases kind : replaces (home services env m default) with
  | true => exact .inr rfl
  | false => exact .inl (clear kind).1

theorem alone_of_kept (configured : env.defaultStorage = some default)
    (looked : retrieveTarget reader m.load = .ok location)
    (there : readPlace services location.storage location.bucket location.objectKey = some (home services env m default))
    (kept : ∀ later, (∀ n ∈ later, n.1.seq ≤ maxSeq ∧ n.1.seq ≠ m.seq) → ∀ order,
      retrieveHandler reader (objectsIn services order (storeAll services env contents later)) m.load = .ok m.ciphertext) :
    Alone services env m default := by
  intro n small different target stored shared
  have ⟨other,short,whole,changed⟩ : ∃ other : List UInt8, other.length ≤ maxStoreObjectSize ∧ GoogleDrive.Whole other ∧ other ≠ m.ciphertext := by
    by_cases empty : m.ciphertext = []
    · exact ⟨[0],by decide,by decide +kernel,by rw [empty]; exact List.cons_ne_nil _ _⟩
    · exact ⟨[],by decide,by decide +kernel,Ne.symm empty⟩
  let replaced : Inbound := {n with ciphertext:=other}
  have accepted : storeTarget env replaced.store = .ok target := storeTarget_data stored short
  obtain ⟨rfl,effect⟩ := storeHandler_default configured accepted contents .none
  have left := leaves_whole services default env.defaultBucket (trimSpace (storageObjectID n.route n.seq)) other fun _ => whole
  have after : storeAll services env contents [(replaced,.none)] = write contents (home services env m default) other := by
    rw [storeAll,List.foldl_cons,List.foldl_nil,effect,putObject]
    simp only [replaced,left]
    exact congrArg (fun p => write contents p other) shared
  have inside : other ∈ held (write contents (home services env m default) other) (home services env m default) := by
    rw [held_write,if_pos rfl]
    split <;> simp
  obtain ⟨order,found⟩ := held_find inside
  have read := kept [(replaced,.none)] (by simp [replaced,small,different]) order
  rw [after,retrieve_at looked there,found] at read
  exact changed (Option.some.inj read)

theorem clear_of_only (left : leaves default (trimSpace (storageObjectID m.route m.seq)) m.ciphertext m.ciphertext.length .none = some data)
    (only : Only (write before (home services env m default) data) (home services env m default) m.ciphertext) :
    Clear services env before m default := by
  intro added
  have files : ∀ d ∈ held before (home services env m default) ++ [data], d = m.ciphertext := by
    have all := only.2
    rw [held_write,if_pos rfl,added] at all
    exact all
  refine ⟨fun d inside => files d (List.mem_append_left _ inside),?_⟩
  have same := files data (List.mem_append_right _ (List.mem_singleton_self _))
  cases default with
  | s3 => cases added
  | mockDrive => cases added
  | googleDrive accessToken folderID =>
    have cut := (if_pos rfl).symm.trans left
    rw [uploaded_eq] at cut
    exact Multipart.kept_eq.mp ((Option.some.inj cut).trans same)

end

-- For an acknowledged message, what the API reads is what the router wrote exactly when the
-- mailbox's client looks where it was put, and nothing else is put there.
theorem read_back_iff (services : Services) (env : Env) (connects reconnects : Bool) (before contents : Contents) (m : Inbound)
    (fault : Fault) (acknowledged : storeHandler services env before m.store fault = (true,contents)) :
    ReadBack services env (env.reaching connects reconnects) contents m ↔
      ∃ default, env.defaultStorage = some default ∧ Serves services env (env.reaching connects reconnects) m default ∧
        Alone services env m default ∧ Clear services env before m default := by
  obtain ⟨default,left,configured,stored,leaves,rfl⟩ := acknowledged_write acknowledged
  constructor
  · rintro ⟨⟨written,looked,target,found,there⟩,kept⟩
    cases stored.symm.trans target
    obtain ⟨client,key⟩ := retrieveTarget_iff.mp found
    have only : Only (write before (home services env m default) left) (home services env m default) m.ciphertext :=
      only_iff.mpr fun order => (retrieve_at found there order _).mp (kept [] nofun order)
    refine ⟨default,configured,⟨looked.storage,looked.bucket,getStorageForMailbox_resolves.mp client,?_⟩,
      alone_of_kept configured found there kept,clear_of_only leaves only⟩
    rw [key]
    exact there
  · rintro ⟨storage,known,⟨client,bucket,resolves,there⟩,alone,clear⟩
    cases configured.symm.trans known
    have looked : retrieveTarget (env.reaching connects reconnects) m.load = .ok ⟨client,bucket,storageObjectID m.route m.seq⟩ :=
      retrieveTarget_iff.mpr ⟨getStorageForMailbox_resolves.mpr resolves,rfl⟩
    refine ⟨⟨_,_,stored,looked,there⟩,fun later others order => (retrieve_at looked there order _).mpr ?_⟩
    have only := only_of_clear clear leaves
    refine Only.find ?_ order
    unfold Only
    rw [storeAll_keeps alone _ others]
    exact only

theorem alone_bucket (small : m.seq ≤ maxSeq) : Alone services env m (.s3 endpoint accessKey secretKey bucket region pathStyle) := by
  intro n small' different location stored same
  obtain ⟨storage,_,rfl⟩ := storeTarget_default stored
  cases storage with
  | s3 => exact different (trimmed_injective small' small (Place.bucket.inj same).2.2)
  | mockDrive => cases same
  | googleDrive => cases same

-- Two connections: c1 names the default storage, c2 a folder; mailbox m1 is on the first
-- and m2 on the second.
def minio : Storage := .s3 "minio:9000" "byosminio" "byosminio_dev_password" "byos-mailbox" "" true

def connectionRow (provider ciphertext : String) : ConnectionRow where
  provider := provider
  config := some fun key => if key = "ciphertext" then some (.text ciphertext) else none
  encrypted := true
  bucketName := ""
  status := "active"

def minioConfig : Config := fun key => if key = "endpoint" then some (.text "minio:9000") else none

def driveConfig : Config := fun key => if key = "root" then some (.text "/srv/drive") else none

def twoConnections : Env where
  defaultStorage := some minio
  defaultBucket := "byos-mailbox"
  getenv _ := ""
  connects := true
  reconnects := true
  mailboxStorage mailboxID := if mailboxID = "m1" then some "c1" else if mailboxID = "m2" then some "c2" else none
  connections connectionID :=
    if connectionID = "c1" then some (connectionRow "s3" "bWluaW8=")
    else if connectionID = "c2" then some (connectionRow "google_drive_mock" "ZHJpdmU=") else none
  openConfig ciphertext := .ok (if ciphertext = "bWluaW8=" then minioConfig else driveConfig)
  toLower text := text
  minioNew _ := none
  mkdirAll _ := none

def inboundFor (mailboxID : String) : Inbound :=
  ⟨⟨"example.org","alice",mailboxID,"d1",List.replicate 32 0,1,"",true,true⟩,7,[1,2,3]⟩

def plainServices : Services := ⟨id,id,parts⟩

def storedAt (mailboxID : String) : Place := .bucket "minio:9000" "byos-mailbox" (storageObjectID (inboundFor mailboxID).route 7)

def afterStore (mailboxID : String) : Contents := [(storedAt mailboxID,[1,2,3])]

theorem read_back_iff_on_minio :
    storeHandler plainServices twoConnections [] (inboundFor "m1").store .none = (true,afterStore "m1") ∧
    ReadBack plainServices twoConnections (twoConnections.reaching true true) (afterStore "m1") (inboundFor "m1") := by
  have acknowledged : storeHandler plainServices twoConnections [] (inboundFor "m1").store .none = (true,afterStore "m1") := by
    decide +kernel
  refine ⟨acknowledged,?_⟩
  refine (read_back_iff plainServices twoConnections true true [] (afterStore "m1") (inboundFor "m1") .none acknowledged).mpr
    ⟨minio,rfl,⟨minio,"byos-mailbox",?_,by decide +kernel⟩,alone_bucket (by decide),nofun⟩
  refine .inr ⟨"c1",connectionRow "s3" "bWluaW8=",minioConfig,by decide,rfl,by decide,rfl,?_,?_,by decide +kernel,by decide +kernel⟩
  · simp [Env.reaching,twoConnections]
  · simp [Env.reaching,twoConnections,ConnectionRow.openedConfig,connectionRow,Config.text]

-- The ciphertext of m2's message is on the default storage, and the API asks the folder.
theorem mapped_mailbox_reads_elsewhere :
    storeHandler plainServices twoConnections [] (inboundFor "m2").store .none = (true,afterStore "m2") ∧
    (∀ order, retrieveHandler (twoConnections.reaching true true) (objectsIn plainServices order (afterStore "m2")) (inboundFor "m2").load =
      .error ⟨500,"Failed to retrieve object: no such file or directory"⟩) ∧
    ¬ReadBack plainServices twoConnections (twoConnections.reaching true true) (afterStore "m2") (inboundFor "m2") := by
  have looked : retrieveTarget (twoConnections.reaching true true) (inboundFor "m2").load =
      .ok ⟨.mockDrive "/srv/drive","byos-mailbox",storageObjectID (inboundFor "m2").route 7⟩ := by decide +kernel
  have empty : held (afterStore "m2") (place plainServices (.mockDrive "/srv/drive") "byos-mailbox" (storageObjectID (inboundFor "m2").route 7)) = [] := by
    decide +kernel
  have gone (order : Order) : retrieveHandler (twoConnections.reaching true true) (objectsIn plainServices order (afterStore "m2"))
      (inboundFor "m2").load = .error ⟨500,"Failed to retrieve object: no such file or directory"⟩ := by
    have none : objectsIn plainServices order (afterStore "m2")
        ⟨.mockDrive "/srv/drive","byos-mailbox",storageObjectID (inboundFor "m2").route 7⟩ = none := by
      have there : readPlace plainServices (.mockDrive "/srv/drive") "byos-mailbox" (storageObjectID (inboundFor "m2").route 7) =
          some (place plainServices (.mockDrive "/srv/drive") "byos-mailbox" (storageObjectID (inboundFor "m2").route 7)) := rfl
      rw [objectsIn,getObject,there,Option.bind_some,find,empty,(order.arrange_perm []).eq_nil]
      rfl
    rw [retrieveHandler,looked]
    simp only [bind,Except.bind,none,missing]
  refine ⟨by decide +kernel,gone,fun read => ?_⟩
  have same := read.kept [] (List.forall_mem_nil _) inTurn
  rw [storeAll,List.foldl_nil,gone] at same
  cases same

end ByosMail.StorageWorker
