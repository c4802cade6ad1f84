import ByosMail.EnvelopeReading

-- A plain document says the same to both readers.
namespace ByosMail.Envelope
open Bytes Json Utf8

theorem mapM_some {pieces : List (Option Char)} (read : pieces.mapM (fun c => c) = some chars) :
    pieces = chars.map some := by
  induction pieces generalizing chars with
  | nil =>
    cases read
    rfl
  | cons p pieces ih =>
    simp only [List.mapM_cons,Option.bind_eq_bind,Option.bind_eq_some_iff,Option.pure_def,Option.some.injEq] at read
    obtain ⟨c,rfl,rest,later,rfl⟩ := read
    rw [List.map_cons,ih later]

theorem Rust.text_unquote (read : Rust.text marks = some chars) : Go.unquote marks = chars := by
  rw [Go.unquote,mapM_some read]
  simp [Function.comp_def]

theorem Rust.legibleMembers_mem {members : Members} (legible : Rust.legibleMembers finite members) :
    ∀ m ∈ members, (Rust.text m.1).isSome ∧ Rust.legible finite m.2 := by
  induction members with
  | nil => simp
  | cons m rest ih =>
    obtain ⟨key,v⟩ := m
    simp only [Rust.legibleMembers,Bool.and_eq_true] at legible
    intro m' member
    rcases List.mem_cons.mp member with rfl | member
    · exact legible.1
    · exact ih legible.2 m' member

theorem fieldFor_name (f : Field) : Go.fieldFor f.name = some f := by
  cases f <;> decide

def Field.isBase64 : Field → Bool
  | .ciphertext | .enc | .nonce | .sig => true
  | _ => false

-- The last member that names a field, in whatever case.
def lastNamed (f : Field) (members : Members) : Option (List Mark × Value) := members.reverse.find? fun m => Go.Names f m.1

-- No text or number that only one library takes and no deep nesting; and of the members that
-- name a field the last has its exact key and is not null, and no earlier one alone is of
-- another type: both readers see the same fields.
structure Clear (finite : List UInt8 → Bool) (members : Members) : Prop where
  shallow : (Value.object members).depth < Rust.recursionLimit
  legible : Rust.legible finite (.object members)
  exactKeys : ∀ f, ∀ m ∈ lastNamed f members, Go.unquote m.1 = f.name
  noNull : ∀ f, ∀ m ∈ lastNamed f members, m.2 = .null → f = .sig
  typed : members.all Go.typedMember = true ∨ ∃ f, ∃ m ∈ lastNamed f members, Go.Typed f m.2 = false

-- And no line break in base64.
structure Plain (finite : List UInt8 → Bool) (members : Members) : Prop extends Clear finite members where
  unbroken : ∀ f, f.isBase64 → ∀ m ∈ lastNamed f members, ∀ marks, m.2 = .string marks →
    ∀ b ∈ encode (Go.unquote marks), b ≠ 10 ∧ b ≠ 13

section
variable {finite : List UInt8 → Bool} {members : Members}

theorem lastNamed_split (last : lastNamed f members = some m) :
    m ∈ members ∧ Go.Names f m.1 ∧ ∃ later earlier, members.reverse = later ++ m :: earlier ∧ ∀ m' ∈ later, ¬Go.Names f m'.1 := by
  obtain ⟨names,later,earlier,split,others⟩ := List.find?_eq_some_iff_append.mp last
  have member : m ∈ members := List.mem_reverse.mp (split ▸ List.mem_append_right _ List.mem_cons_self)
  exact ⟨member,of_decide_eq_true names,later,earlier,split,fun m' there => by simpa using others m' there⟩

theorem Clear.text (clear : Clear finite members) (member : m ∈ members) : Rust.text m.1 = some (Go.unquote m.1) := by
  have legible := clear.legible
  simp only [Rust.legible] at legible
  obtain ⟨chars,read⟩ := Option.isSome_iff_exists.mp (Rust.legibleMembers_mem legible m member).1
  rw [read,Rust.text_unquote read]

theorem Clear.named (clear : Clear finite members) (member : m ∈ members) (same : Rust.text m.1 = some f.name) :
    Go.Names f m.1 := by
  rw [clear.text member,Option.some.injEq] at same
  rw [Go.Names,same]
  exact fieldFor_name f

theorem Clear.slot (clear : Clear finite members) (f : Field) :
    (lastNamed f members = none ∧ Rust.lookup members f = none ∧ ∀ m ∈ members, ¬Go.Names f m.1) ∨
    ∃ m, lastNamed f members = some m ∧ m ∈ members ∧ Go.Names f m.1 ∧ Rust.lookup members f = some m.2 := by
  cases last : lastNamed f members with
  | none =>
    have unnamed : ∀ m ∈ members, ¬Go.Names f m.1 := by
      intro m member
      simpa using List.find?_eq_none.mp last m (List.mem_reverse.mpr member)
    refine .inl ⟨rfl,?_,unnamed⟩
    rw [Rust.lookup,List.find?_eq_none.mpr,Option.map_none]
    intro m there same
    have member := List.mem_reverse.mp there
    exact unnamed m member (clear.named member (of_decide_eq_true same))
  | some m =>
    obtain ⟨member,names,later,earlier,split,others⟩ := lastNamed_split last
    refine .inr ⟨m,rfl,member,names,?_⟩
    have found : members.reverse.find? (fun m => Rust.text m.1 = some f.name) = some m := by
      refine List.find?_eq_some_iff_append.mpr ⟨?_,later,earlier,split,?_⟩
      · rw [clear.text member,clear.exactKeys f m last]
        exact decide_eq_true rfl
      · intro m' there
        have member' : m' ∈ members := List.mem_reverse.mp (split ▸ List.mem_append_left _ there)
        have other : Rust.text m'.1 ≠ some f.name := fun same => others m' there (clear.named member' same)
        simpa using other
    rw [Rust.lookup,found,Option.map_some]

theorem lastGiven_last {gives : Value → Option α} (last : lastNamed f members = some m) (given : gives m.2 = some a) :
    lastGiven (Go.Names f) gives members = some a := by
  obtain ⟨-,names,later,earlier,split,others⟩ := lastNamed_split last
  have quiet : later.findSome? (fun m => if Go.Names f m.1 then gives m.2 else none) = none := by
    rw [List.findSome?_eq_none_iff]
    intro m' there
    rw [if_neg (others m' there)]
  rw [lastGiven,split,List.findSome?_append,quiet,Option.none_or,List.findSome?_cons,if_pos names,given]

theorem Clear.given (clear : Clear finite members) {gives : Value → Option α} (found : Rust.lookup members f = some v)
    (given : gives v = some a) : lastGiven (Go.Names f) gives members = some a := by
  rcases clear.slot f with ⟨-,empty,-⟩ | ⟨m,last,-,-,here⟩
  · rw [empty] at found
    cases found
  · rw [here] at found
    cases found
    exact lastGiven_last last given

theorem Clear.present (clear : Clear finite members) :
    (∀ f ∈ requiredFields, f.name ∈ members.map fun m => Go.unquote m.1) ↔
      requiredFields.all (Rust.contains_key members) := by
  rw [List.all_eq_true]
  refine forall_congr' fun f => imp_congr_right fun _ => ?_
  rw [Rust.contains_key,List.mem_map]
  rcases clear.slot f with ⟨-,empty,unnamed⟩ | ⟨m,last,member,names,found⟩
  · rw [empty]
    refine iff_of_false ?_ (by simp)
    intro named
    obtain ⟨m,member,same⟩ := named
    exact unnamed m member (by rw [Go.Names,same]; exact fieldFor_name f)
  · rw [found]
    exact iff_of_true ⟨m,member,clear.exactKeys f m last⟩ rfl

theorem Clear.typed_iff (clear : Clear finite members) :
    members.all Go.typedMember ↔ ∀ f v, Rust.lookup members f = some v → Go.Typed f v := by
  constructor
  · intro typed f v found
    rcases clear.slot f with ⟨-,empty,-⟩ | ⟨m,-,member,names,here⟩
    · rw [empty] at found
      cases found
    · rw [here] at found
      cases found
      have checked := List.all_eq_true.mp typed m member
      rwa [Go.typedMember,show Go.fieldFor (Go.unquote m.1) = some f from names] at checked
  · intro typed
    rcases clear.typed with all | ⟨f,m,last,untyped⟩
    · exact all
    · rcases clear.slot f with ⟨none,-⟩ | ⟨m',last',-,-,here⟩
      · rw [none] at last
        cases last
      · cases Option.some.inj (last.symm.trans last')
        rw [typed f m.2 here] at untyped
        cases untyped

theorem Clear.taken (clear : Clear finite members) (found : Rust.lookup members f = some v) :
    (v = .null → f = .sig) ∧ Rust.legible finite v := by
  rcases clear.slot f with ⟨-,empty,-⟩ | ⟨m,last,member,-,here⟩
  · rw [empty] at found
    cases found
  · rw [here] at found
    cases found
    have legible := clear.legible
    simp only [Rust.legible] at legible
    exact ⟨clear.noNull f m last,(Rust.legibleMembers_mem legible m member).2⟩

theorem string_field_taken (legible : Rust.legible finite v) (present : v ≠ .null) :
    (Rust.string_field v).map utf8 = Go.givesText v ∧ (Go.isText v = (Rust.string_field v).isSome) := by
  cases v with
  | null => exact absurd rfl present
  | string marks =>
    simp only [Rust.legible] at legible
    obtain ⟨chars,read⟩ := Option.isSome_iff_exists.mp legible
    simp [Rust.string_field,Go.givesText,Go.isText,read,utf8_ofList,Rust.text_unquote read]
  | bool | number | array | object => exact ⟨rfl,rfl⟩

theorem uint_field_taken (present : v ≠ .null) :
    Rust.uint_field bound v = Go.givesUint bound v ∧ Go.isUint bound v = (Rust.uint_field bound v).isSome := by
  cases v with
  | null => exact absurd rfl present
  | bool | string | number | array | object => exact ⟨rfl,rfl⟩

theorem option_field_taken (legible : Rust.legible finite v) :
    (Rust.option_field v).map (·.map utf8) = Go.pointerValue v ∧ Go.isText v = (Rust.option_field v).isSome := by
  cases v with
  | string marks =>
    simp only [Rust.legible] at legible
    obtain ⟨chars,read⟩ := Option.isSome_iff_exists.mp legible
    simp [Rust.option_field,Go.pointerValue,Go.isText,Go.givesText,read,utf8_ofList,Rust.text_unquote read]
  | null | bool | number | array | object => exact ⟨rfl,rfl⟩

theorem Clear.text_field (clear : Clear finite members) (found : Rust.lookup members f = some v) (other : f ≠ .sig)
    (typed : Go.isText v) :
    ∃ t, (Rust.lookup members f).bind Rust.string_field = some t ∧
      lastGiven (Go.Names f) Go.givesText members = some (utf8 t) := by
  obtain ⟨noNull,legible⟩ := clear.taken found
  obtain ⟨same,some⟩ := string_field_taken legible (fun null => other (noNull null))
  rw [some] at typed
  obtain ⟨t,read⟩ := Option.isSome_iff_exists.mp typed
  refine ⟨t,by simp [found,read],?_⟩
  exact clear.given found (by rw [← same,read,Option.map_some])

theorem Clear.uint_field (clear : Clear finite members) (found : Rust.lookup members f = some v) (other : f ≠ .sig)
    (typed : Go.isUint bound v) :
    ∃ n, (Rust.lookup members f).bind (Rust.uint_field bound) = some n ∧
      lastGiven (Go.Names f) (Go.givesUint bound) members = some n := by
  obtain ⟨noNull,-⟩ := clear.taken found
  obtain ⟨same,some⟩ := uint_field_taken (fun null => other (noNull null))
  rw [some] at typed
  obtain ⟨n,read⟩ := Option.isSome_iff_exists.mp typed
  refine ⟨n,by simp [found,read],?_⟩
  exact clear.given found (by rw [← same,read])

theorem Clear.sig_field (clear : Clear finite members) (found : Rust.lookup members .sig = some v) (typed : Go.isText v) :
    ∃ t, Rust.option_field v = some t ∧ lastGiven (Go.Names .sig) Go.pointerValue members = some (t.map utf8) := by
  obtain ⟨-,legible⟩ := clear.taken found
  obtain ⟨same,some⟩ := option_field_taken legible
  rw [some] at typed
  obtain ⟨t,read⟩ := Option.isSome_iff_exists.mp typed
  refine ⟨t,read,?_⟩
  exact clear.given found (by rw [← same,read,Option.map_some])

theorem Clear.from_value_typed (clear : Clear finite members) (present : ∀ f, ∃ v, Rust.lookup members f = some v)
    (typed : ∀ f v, Rust.lookup members f = some v → Go.Typed f v) :
    (Rust.from_value members).map (·.map utf8) = some (Go.overlay Go.zeroValue members) := by
  have text (f : Field) (other : f ≠ .sig) (kind : Go.Typed f = Go.isText) :
      ∃ t, (Rust.lookup members f).bind Rust.string_field = some t ∧
        lastGiven (Go.Names f) Go.givesText members = some (utf8 t) := by
    obtain ⟨v,found⟩ := present f
    have fits := typed f v found
    rw [kind] at fits
    exact clear.text_field found other fits
  have uint (f : Field) (bound : Nat) (other : f ≠ .sig) (kind : Go.Typed f = Go.isUint bound) :
      ∃ n, (Rust.lookup members f).bind (Rust.uint_field bound) = some n ∧
        lastGiven (Go.Names f) (Go.givesUint bound) members = some n := by
    obtain ⟨v,found⟩ := present f
    have fits := typed f v found
    rw [kind] at fits
    exact clear.uint_field found other fits
  obtain ⟨alg,algRead,algGiven⟩ := text .alg (by decide) rfl
  obtain ⟨ciphertext,ciphertextRead,ciphertextGiven⟩ := text .ciphertext (by decide) rfl
  obtain ⟨enc,encRead,encGiven⟩ := text .enc (by decide) rfl
  obtain ⟨epoch,epochRead,epochGiven⟩ := uint .keyEpoch (2 ^ 32) (by decide) rfl
  obtain ⟨key,keyRead,keyGiven⟩ := text .keyID (by decide) rfl
  obtain ⟨nonce,nonceRead,nonceGiven⟩ := text .nonce (by decide) rfl
  obtain ⟨version,versionRead,versionGiven⟩ := uint .v (2 ^ 8) (by decide) rfl
  obtain ⟨value,found⟩ := present .sig
  obtain ⟨sig,sigRead,sigGiven⟩ := clear.sig_field found (typed .sig value found)
  simp only [Rust.from_value,algRead,ciphertextRead,encRead,epochRead,keyRead,nonceRead,versionRead,found,Rust.default_field,sigRead,
    Option.bind_eq_bind,Option.bind_some,Option.pure_def,Option.map_some]
  simp only [Go.overlay,algGiven,ciphertextGiven,encGiven,epochGiven,keyGiven,nonceGiven,versionGiven,sigGiven,
    Option.getD_some]
  rfl

theorem Clear.from_value_untyped (clear : Clear finite members) (found : Rust.lookup members f = some v)
    (untyped : ¬Go.Typed f v) : Rust.from_value members = none := by
  obtain ⟨noNull,legible⟩ := clear.taken found
  have text (other : f ≠ .sig) (wrong : ¬Go.isText v) : (Rust.lookup members f).bind Rust.string_field = none := by
    rw [found,Option.bind_some,← Option.not_isSome_iff_eq_none,
      ← (string_field_taken legible (fun null => other (noNull null))).2]
    exact wrong
  have uint (bound : Nat) (other : f ≠ .sig) (wrong : ¬Go.isUint bound v) :
      (Rust.lookup members f).bind (Rust.uint_field bound) = none := by
    rw [found,Option.bind_some,← Option.not_isSome_iff_eq_none,
      ← (uint_field_taken (fun null => other (noNull null))).2]
    exact wrong
  cases f with
  | sig =>
    have unread : Rust.option_field v = none := by
      rw [← Option.not_isSome_iff_eq_none,← (option_field_taken legible).2]
      exact untyped
    simp [Rust.from_value,found,Rust.default_field,unread]
  | alg | ciphertext | enc | keyID | nonce => simp [Rust.from_value,text (by decide) untyped]
  | keyEpoch =>
    simp only [Rust.from_value,uint (2 ^ 32) (by decide) untyped,Option.bind_eq_bind,Option.bind_none,Option.bind_fun_none]
  | v =>
    simp only [Rust.from_value,uint (2 ^ 8) (by decide) untyped,Option.bind_eq_bind,Option.bind_none,Option.bind_fun_none]

theorem Clear.readings (clear : Clear finite members) : Go.reading members = Rust.reading finite members := by
  have shallow : (Value.object members).depth ≤ Go.maxNestingDepth := by
    have := clear.shallow
    simp only [Rust.recursionLimit,Go.maxNestingDepth] at *
    omega
  simp only [Go.reading,Rust.reading,shallow,clear.shallow,clear.legible,true_and,clear.present]
  by_cases all : requiredFields.all (Rust.contains_key members)
  · have present : ∀ f, ∃ v, Rust.lookup members f = some v := by
      intro f
      have listed : f ∈ requiredFields := by cases f <;> decide
      exact Option.isSome_iff_exists.mp (List.all_eq_true.mp all f listed)
    by_cases typed : ∀ f v, Rust.lookup members f = some v → Go.Typed f v
    · rw [if_pos ⟨clear.typed_iff.mpr typed,all⟩,if_pos all]
      exact (clear.from_value_typed present typed).symm
    · rw [if_neg (fun both => typed (clear.typed_iff.mp both.1)),if_pos all]
      simp only [not_forall] at typed
      obtain ⟨f,v,found,untyped⟩ := typed
      rw [clear.from_value_untyped found untyped]
      rfl
  · rw [if_neg (fun both => all both.2),if_neg all]

theorem lastGiven_some {accepts : List Mark → Prop} [DecidablePred accepts] {gives : Value → Option α}
    (given : lastGiven accepts gives members = some a) : ∃ m ∈ members, accepts m.1 ∧ gives m.2 = some a := by
  obtain ⟨m,member,found⟩ := List.exists_of_findSome?_eq_some given
  by_cases here : accepts m.1
  · rw [if_pos here] at found
    exact ⟨m,List.mem_reverse.mp member,here,found⟩
  · rw [if_neg here] at found
    cases found

def Unbroken (text : List UInt8) : Prop := ∀ b ∈ text, b ≠ 10 ∧ b ≠ 13

theorem fault_unbroken {env : CryptoEnvelope (List UInt8)} (enc : Unbroken env.enc) (nonce : Unbroken env.nonce)
    (ciphertext : Unbroken env.ciphertext) (sig : ∀ text, env.sig = some text → Unbroken text) :
    fault Base64.decodeSkippingBreaks env = fault Base64.decode env := by
  have sigs : env.sig.mapM Base64.decodeSkippingBreaks = env.sig.mapM Base64.decode := by
    cases given : env.sig with
    | none => rfl
    | some text =>
      rw [Option.mapM_some,Option.mapM_some,Base64.decodeSkippingBreaks_unbroken (sig text given)]
  simp only [fault,Base64.decodeSkippingBreaks_unbroken enc,Base64.decodeSkippingBreaks_unbroken nonce,
    Base64.decodeSkippingBreaks_unbroken ciphertext,sigs]

end

end ByosMail.Envelope
