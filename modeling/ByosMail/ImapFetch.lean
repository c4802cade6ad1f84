import ByosMail.GoRuntime
import ByosMail.ImapSession

-- Which sequence tokens of a FETCH line are served, and with which message.
namespace ByosMail.ImapFetch
open Bridge ImapSession GoRuntime

structure Token where
  bytes : Text
  solid : space ∉ bytes
  oneLine : 10 ∉ bytes

def numeral (t : Text) : Option Nat := if t ≠ [] ∧ t.all decimalDigit then some (positional 10 0 t) else none

section
variable (rt : Runtime) (cfg : BridgeConfig)

structure FetchLine (s : Session) (e : Input) (tag token : Text) (items : List Text) : Prop where
  mode : s.mode = .command
  words : ∃ verb, parts e = tag :: verb :: token :: items ∧ rt.toUpper verb = text "FETCH"

def Serves (s : Session) (e : Input) (m : Message) : Prop :=
  .untagged (.header m) ∈ replies rt cfg s e ∨ ∃ bytes, .untagged (.body m bytes) ∈ replies rt cfg s e

-- In every session and for every mailbox: a numeral gets the message of that number if
-- anything, and behind a login every other token gets BAD.
def Right (token : Text) : Prop :=
  ∀ s e tag items, FetchLine rt s e tag token items →
    (∀ m, Serves rt cfg s e m → ∃ n messages, numeral token = some n ∧ e.messages = some messages ∧ m ∈ messages ∧ m.messageSeq = n) ∧
    (numeral token = none → s.authenticated = true → ∃ why, replies rt cfg s e = [.tagged tag ("BAD " ++ why)])

end

-- Numerals: without a leading zero, zeros and at most one octal digit, or octal digits too
-- many for an int64.
def straight (t : Text) : Bool :=
  match t with
  | [] => false
  | b :: rest =>
    b != 48 ||
      (match rest.dropWhile (· == 48) with
        | [] => true
        | [d] => octalDigit d
        | _ => false) ||
      2 ^ 63 ≤ positional 8 0 (rest.takeWhile octalDigit)

-- Other tokens: blank, or the first field has one of the marks or is nothing Sscan takes.
def refused (t : Text) : Bool :=
  match fields t with
  | [] => true
  | sequence :: _ => sequence.any ((text ":,*").contains ·) || (sscan sequence).isNone

def handled (t : Text) : Bool := if (numeral t).isSome then straight t else refused t

theorem handled_numeral {t : Text} {n : Nat} (isNumeral : numeral t = some n) : handled t = straight t := by
  rw [handled,isNumeral]
  rfl

theorem handled_other {t : Text} (none : numeral t = none) : handled t = refused t := by
  rw [handled,none]
  rfl

example : ["5","0","007","5:7","*","x"].map (fun t => handled (text t)) = [true,true,true,true,true,true] ∧
    ["010","08","12abc","0x10","1_000","+5","5\t6"].map (fun t => handled (text t)) =
      [false,false,false,false,false,false,false] := by decide

theorem positional_cons (base n : Nat) (b : UInt8) (rest : Text) :
    positional base n (b :: rest) = positional base (n * base + (b.toNat - 48)) rest := by
  unfold positional
  rw [List.foldl_cons]

theorem positional_least (base : Nat) (positive : 0 < base) (t : Text) : ∀ n, n ≤ positional base n t := by
  induction t with
  | nil => intro n; exact Nat.le_refl n
  | cons b rest ih =>
    intro n
    have grown : n ≤ n * base + (b.toNat - 48) := Nat.le_trans (Nat.le_mul_of_pos_right n positive) (Nat.le_add_right _ _)
    exact Nat.le_trans grown (ih _)

-- Once the octal reading has fallen behind it stays behind.
theorem octal_behind (t : Text) : ∀ n n', n < n' → positional 8 n (t.takeWhile octalDigit) < positional 10 n' t := by
  induction t with
  | nil => intro n n' less; exact less
  | cons b rest ih =>
    intro n n' less
    by_cases octal : octalDigit b = true
    · rw [List.takeWhile_cons_of_pos octal,positional_cons,positional_cons]
      exact ih _ _ (by omega)
    · rw [List.takeWhile_cons_of_neg octal]
      exact Nat.lt_of_lt_of_le less (positional_least 10 (by decide) (b :: rest) n')

theorem positional_zero (base : Nat) (rest : Text) : positional base 0 (48 :: rest) = positional base 0 rest := by
  have none : 0 * base + ((48 : UInt8).toNat - 48) = 0 := by simp
  rw [positional,List.foldl_cons,none]
  rfl

theorem digit_positive : ∀ b : UInt8, decimalDigit b = true → b ≠ 48 → 0 < b.toNat - 48 := by
  refine Utf8.every_byte ?_
  decide +kernel

theorem octal_agrees (rest : Text) (digits : ∀ b ∈ rest, decimalDigit b = true) :
    positional 8 0 (rest.takeWhile octalDigit) = positional 10 0 rest ↔
      (match rest.dropWhile (· == 48) with
        | [] => true
        | [d] => octalDigit d
        | _ => false) = true := by
  induction rest with
  | nil => exact ⟨fun _ => rfl,fun _ => rfl⟩
  | cons b more ih =>
    by_cases zero : b = 48
    · have octal : octalDigit 48 = true := by decide
      have skipped : (48 :: more).dropWhile (· == (48 : UInt8)) = more.dropWhile (· == 48) := List.dropWhile_cons_of_pos (by decide)
      rw [zero,List.takeWhile_cons_of_pos octal,positional_zero,positional_zero,skipped]
      exact ih fun d member => digits d (List.mem_cons_of_mem _ member)
    · have positive := digit_positive b (digits b List.mem_cons_self) zero
      have kept : (b :: more).dropWhile (· == (48 : UInt8)) = b :: more := List.dropWhile_cons_of_neg (by simpa using zero)
      rw [kept]
      by_cases octal : octalDigit b = true
      · rw [List.takeWhile_cons_of_pos octal]
        cases more with
        | nil => exact ⟨fun _ => octal,fun _ => rfl⟩
        | cons c others =>
          have first : positional 8 0 (b :: (c :: others).takeWhile octalDigit) =
              positional 8 (b.toNat - 48) ((c :: others).takeWhile octalDigit) := by simp [positional]
          have whole : positional 10 0 (b :: c :: others) = positional 10 ((b.toNat - 48) * 10 + (c.toNat - 48)) others := by
            simp [positional]
          have less : positional 8 (b.toNat - 48) ((c :: others).takeWhile octalDigit) <
              positional 10 ((b.toNat - 48) * 10 + (c.toNat - 48)) others := by
            by_cases next : octalDigit c = true
            · rw [List.takeWhile_cons_of_pos next,positional_cons]
              exact octal_behind others _ _ (by omega)
            · rw [List.takeWhile_cons_of_neg next]
              have least := positional_least 10 (by decide) others ((b.toNat - 48) * 10 + (c.toNat - 48))
              exact Nat.lt_of_lt_of_le (show b.toNat - 48 < (b.toNat - 48) * 10 + (c.toNat - 48) by omega) least
          rw [first,whole]
          exact ⟨fun same => absurd same (Nat.ne_of_lt less),nofun⟩
      · have least := positional_least 10 (by decide) more (0 * 10 + (b.toNat - 48))
        rw [List.takeWhile_cons_of_neg octal]
        constructor
        · intro same
          have value : positional 10 (0 * 10 + (b.toNat - 48)) more = 0 := same.symm
          omega
        · intro short
          cases more with
          | nil => exact absurd short octal
          | cons c others => cases short

-- The number scanned from a numeral is its value exactly when the numeral is straight.
theorem straight_scan (t : Text) (n : Nat) (isNumeral : numeral t = some n) :
    straight t = true ↔ ∀ k, sscan t = some k → k = n := by
  unfold numeral at isNumeral
  split at isNumeral
  · rename_i shape
    have value := Option.some.inj isNumeral
    have digits : ∀ b ∈ t, decimalDigit b = true := List.all_eq_true.mp shape.2
    cases t with
    | nil => exact absurd rfl shape.1
    | cons b rest =>
      rw [sscan_digits b rest digits,← value]
      by_cases zero : b = 48
      · have later : ∀ c ∈ rest, decimalDigit c = true := fun c member => digits c (List.mem_cons_of_mem _ member)
        rw [zero,scan_octal rest later,positional_zero]
        have shape : straight (48 :: rest) = true ↔
            positional 8 0 (rest.takeWhile octalDigit) = positional 10 0 rest ∨ 2 ^ 63 ≤ positional 8 0 (rest.takeWhile octalDigit) := by
          rw [straight,octal_agrees rest later]
          simp
        rw [shape]
        by_cases small : positional 8 0 (rest.takeWhile octalDigit) < 2 ^ 63
        · rw [if_pos small]
          constructor
          · intro either k same
            rcases either with agrees | large
            · rw [← Option.some.inj same,agrees]
            · omega
          · intro right
            exact .inl (Int.ofNat.inj (right _ rfl))
        · rw [if_neg small]
          exact ⟨fun _ _ none => (by cases none),fun _ => .inr (Nat.le_of_not_lt small)⟩
      · rw [scan_decimal b rest digits zero]
        have plain : straight (b :: rest) = true := by simp [straight,zero]
        refine ⟨fun _ k same => ?_,fun _ => plain⟩
        split at same
        · exact (Option.some.inj same).symm
        · cases same
  · cases isNumeral

section
variable {rt : Runtime} {cfg : BridgeConfig} {s : Session} {e : Input} {tag token : Text} {items : List Text}

theorem command_fetch (args : List Text) : command rt cfg s tag (text "FETCH") args e = guarded rt s tag (text "FETCH") args e := by
  have other : ¬text "FETCH" = text "CAPABILITY" ∧ ¬text "FETCH" = text "NOOP" ∧ ¬text "FETCH" = text "LOGIN" ∧ ¬text "FETCH" = text "AUTH" := by
    decide
  have listed : [text "SELECT",text "FETCH",text "LIST",text "STATUS",text "SEARCH"].contains (text "FETCH") = true := by decide
  rw [command,if_neg other.1,if_neg other.2.1,if_neg other.2.2.1,if_neg other.2.2.2,if_pos listed]

theorem FetchLine.turn (cfg : BridgeConfig) (line : FetchLine rt s e tag token items) :
    replies rt cfg s e = (guarded rt s tag (text "FETCH") (token :: items) e).replies := by
  obtain ⟨mode,verb,words,isFetch⟩ := line
  rw [replies,handleIMAPConnection,mode]
  simp only [words,isFetch,command_fetch]
  rfl

theorem FetchLine.fetched (cfg : BridgeConfig) (line : FetchLine rt s e tag token items) (authenticated : s.authenticated = true) :
    replies rt cfg s e = (fetch rt s tag (token :: items) e).replies := by
  have known : ¬s.authenticated = false := by rw [authenticated]; decide
  have other : ¬text "FETCH" = text "SELECT" := by decide
  rw [line.turn,guarded,if_neg known,if_neg other,if_pos rfl]

theorem FetchLine.refused (cfg : BridgeConfig) (line : FetchLine rt s e tag token items) (anonymous : s.authenticated = false) :
    replies rt cfg s e = [.tagged tag "NO authenticate first"] := by
  rw [line.turn,guarded,if_pos anonymous]
  rfl

theorem tagged_serves (result : String) : ¬(Reply.untagged (.header m) ∈ [Reply.tagged tag result] ∨
    ∃ bytes, Reply.untagged (.body m bytes) ∈ [Reply.tagged tag result]) := by simp

end

section
variable {unicode : Unicode} {s : Session} {e : Input} {tag token : Text} {items : List Text}

theorem fetch_bad (bad : items = [] ∨ refused token = true) :
    ∃ why, (fetch (go unicode) s tag (token :: items) e).replies = [.tagged tag ("BAD " ++ why)] := by
  cases items with
  | nil => exact ⟨"invalid FETCH command",rfl⟩
  | cons item more =>
    have refusal : refused token = true := bad.resolve_left (List.cons_ne_nil _ _)
    unfold refused at refusal
    have parsed : (go unicode).fields token = fields token := rfl
    rw [fetch,parsed]
    cases split : fields token with
    | nil => exact ⟨"invalid FETCH command",rfl⟩
    | cons sequence others =>
      rw [split] at refusal
      cases marked : sequence.any ((text ":,*").contains ·) with
      | true => exact ⟨"only single message sequence fetch is supported",by simp only [marked]; rfl⟩
      | false =>
        have scanned : (go unicode).sscan sequence = none := by
          simp only [marked,Bool.false_or] at refusal
          exact Option.isNone_iff_eq_none.mp refusal
        refine ⟨"invalid message sequence",?_⟩
        simp only [marked,scanned]
        rfl

theorem fetch_scanned {k : Int} {item sequence : Text} {others more : List Text} (parsed : fields token = sequence :: others)
    (clear : sequence.any ((text ":,*").contains ·) = false) (scanned : sscan sequence = some k) :
    fetch (go unicode) s tag (token :: item :: more) e =
      match e.messages with
      | none => reply s tag [] "NO mailbox metadata unavailable"
      | some messages =>
        match messages.find? (·.messageSeq = k) with
        | none => reply s tag [] "NO message not found"
        | some message =>
          let fetchItem := (go unicode).toUpper (join " " (item :: more))
          if contains (text "HEADER") fetchItem then reply s tag [.header message] "OK FETCH completed"
          else if contains (text "BODY") fetchItem ∨ contains (text "RFC822") fetchItem then writeBodyFetch s tag message e
          else reply s tag [] "NO only HEADER and BODY fetch are supported" := by
  have parsed' : (go unicode).fields token = sequence :: others := parsed
  have scanned' : (go unicode).sscan sequence = some k := scanned
  rw [fetch,parsed']
  simp only [clear,scanned']
  cases e.messages with
  | none => rfl
  | some messages =>
    cases messages.find? (·.messageSeq = k) with
    | none => rfl
    | some message => rfl

theorem not_refused (kept : ¬refused token = true) :
    ∃ sequence others k, fields token = sequence :: others ∧ sequence.any ((text ":,*").contains ·) = false ∧ sscan sequence = some k := by
  unfold refused at kept
  cases parsed : fields token with
  | nil => rw [parsed] at kept; exact absurd rfl kept
  | cons sequence others =>
    simp only [parsed,Bool.or_eq_true,not_or,Bool.not_eq_true] at kept
    cases scanned : sscan sequence with
    | none => rw [scanned] at kept; cases kept.2
    | some k => exact ⟨sequence,others,k,rfl,kept.1,scanned⟩

theorem writeBodyFetch_served {message m : Message}
    (served : Reply.untagged (.header m) ∈ (writeBodyFetch s tag message e).replies ∨
      ∃ bytes, Reply.untagged (.body m bytes) ∈ (writeBodyFetch s tag message e).replies) : m = message := by
  unfold writeBodyFetch at served
  cases sent : e.encryptedBody with
  | none => rw [sent] at served; exact absurd served (tagged_serves _)
  | some encryptedBody =>
    simp only [sent] at served
    cases decoded : Base64.decodeStd encryptedBody with
    | none => rw [decoded] at served; exact absurd served (tagged_serves _)
    | some encryptedBytes =>
      simp only [decoded] at served
      rcases served with header | ⟨bytes,body⟩
      · simp [reply] at header
      · have same : m = message ∧ bytes = encryptedBytes := by simpa [reply] using body
        exact same.1

theorem fetch_served {m : Message} (served : Reply.untagged (.header m) ∈ (fetch (go unicode) s tag (token :: items) e).replies ∨
      ∃ bytes, Reply.untagged (.body m bytes) ∈ (fetch (go unicode) s tag (token :: items) e).replies) :
    ∃ sequence others messages, fields token = sequence :: others ∧ sscan sequence = some m.messageSeq ∧
      e.messages = some messages ∧ m ∈ messages := by
  by_cases bad : items = [] ∨ refused token = true
  · have answered : ∃ why, (fetch (go unicode) s tag (token :: items) e).replies = [.tagged tag ("BAD " ++ why)] := fetch_bad bad
    obtain ⟨why,replies⟩ := answered
    rw [replies] at served
    exact absurd served (tagged_serves _)
  · obtain ⟨sequence,others,k,parsed,clear,scanned⟩ := not_refused fun refusal => bad (.inr refusal)
    obtain ⟨item,more,rfl⟩ := List.exists_cons_of_ne_nil fun none => bad (.inl none)
    rw [fetch_scanned parsed clear scanned] at served
    cases listed : e.messages with
    | none => rw [listed] at served; exact absurd served (tagged_serves _)
    | some messages =>
      simp only [listed] at served
      cases found : messages.find? (·.messageSeq = k) with
      | none => rw [found] at served; exact absurd served (tagged_serves _)
      | some message =>
        simp only [found] at served
        have same : m = message := by
          split at served
          · simpa [reply] using served
          split at served
          · exact writeBodyFetch_served served
          · exact absurd served (tagged_serves _)
        have number : message.messageSeq = k := by simpa using List.find?_some found
        subst same
        exact ⟨sequence,others,messages,parsed,by rw [scanned,number],rfl,List.mem_of_find?_eq_some found⟩

end

def asks (token : Text) (messages : Option (List Message)) : Input :=
  ⟨[space].intercalate [text "a",text "FETCH",token,text "HEADER"],false,messages,none⟩

def signedIn : Session := ⟨true,.command⟩

theorem asks_line (unicode : Unicode) (token : Token) (messages : Option (List Message)) :
    FetchLine (go unicode) signedIn (asks token.bytes messages) (text "a") token.bytes [text "HEADER"] := by
  have fixed : ¬crlf.contains (82 : UInt8) = true := by decide
  have line : (asks token.bytes messages).line = text "a FETCH " ++ token.bytes ++ text " HEADE" ++ [82] := by
    have parts : (asks token.bytes messages).line =
        text "a" ++ ([space] ++ (text "FETCH" ++ ([space] ++ (token.bytes ++ ([space] ++ text "HEADER"))))) := rfl
    have front : text "a FETCH " = text "a" ++ [space] ++ text "FETCH" ++ [space] := by decide
    have back : [space] ++ text "HEADER" = text " HEADE" ++ [82] := by decide
    rw [parts,front,back]
    simp only [List.append_assoc]
  have kept : trimRight crlf (asks token.bytes messages).line = (asks token.bytes messages).line := by
    rw [line]
    exact List.rdropWhile_concat_neg _ _ _ fixed
  have solid : ∀ word ∈ [text "a",text "FETCH",token.bytes,text "HEADER"], space ∉ word := by
    have fixedWords : space ∉ text "a" ∧ space ∉ text "FETCH" ∧ space ∉ text "HEADER" := by decide
    intro word member
    simp only [List.mem_cons,List.not_mem_nil,or_false] at member
    rcases member with same | same | same | same
    · rw [same]; exact fixedWords.1
    · rw [same]; exact fixedWords.2.1
    · rw [same]; exact token.solid
    · rw [same]; exact fixedWords.2.2
  refine ⟨rfl,text "FETCH",?_,upper_plain unicode _ (each_char (by decide))⟩
  rw [parts,kept]
  exact List.splitOn_intercalate space solid (List.cons_ne_nil _ _)

theorem numeral_fields {t : Text} {n : Nat} (isNumeral : numeral t = some n) : fields t = [t] := by
  unfold numeral at isNumeral
  split at isNumeral
  · rename_i shape
    exact fields_solid shape.1 (digits_solid (List.all_eq_true.mp shape.2))
  · cases isNumeral

theorem numeral_unmarked {t : Text} {n : Nat} (isNumeral : numeral t = some n) : t.any ((text ":,*").contains ·) = false := by
  have clear : ∀ b : UInt8, decimalDigit b = true → (text ":,*").contains b = false := by
    refine Utf8.every_byte ?_
    decide +kernel
  unfold numeral at isNumeral
  split at isNumeral
  · rename_i shape
    rw [List.any_eq_false]
    intro b member
    rw [clear b (List.all_eq_true.mp shape.2 b member)]
    exact Bool.false_ne_true
  · cases isNumeral

theorem asks_served (unicode : Unicode) (cfg : BridgeConfig) (token : Token) {n : Nat} {k : Int}
    (isNumeral : numeral token.bytes = some n) (scanned : sscan token.bytes = some k) :
    Serves (go unicode) cfg signedIn (asks token.bytes (some [⟨k,[],[],[],[],[],[]⟩])) ⟨k,[],[],[],[],[],[]⟩ := by
  have answered := (asks_line unicode token (some [⟨k,[],[],[],[],[],[]⟩])).fetched cfg rfl
  rw [fetch_scanned (numeral_fields isNumeral) (numeral_unmarked isNumeral) scanned] at answered
  have joined : join " " [text "HEADER"] = text "HEADER" := by decide
  have upper : (go unicode).toUpper (join " " [text "HEADER"]) = text "HEADER" := by
    rw [joined]
    exact upper_plain unicode "HEADER".toList (each_char (by decide))
  have asked : contains (text "HEADER") (text "HEADER") = true := by decide
  have found : [(⟨k,[],[],[],[],[],[]⟩ : Message)].find? (·.messageSeq = k) = some ⟨k,[],[],[],[],[],[]⟩ := by simp
  have listed : (asks token.bytes (some [⟨k,[],[],[],[],[],[]⟩])).messages = some [⟨k,[],[],[],[],[],[]⟩] := rfl
  simp only [listed,found,upper,if_pos asked] at answered
  refine .inl ?_
  rw [answered]
  exact List.mem_cons_self

theorem right_handled (unicode : Unicode) (cfg : BridgeConfig) (token : Token) (right : Right (go unicode) cfg token.bytes) :
    handled token.bytes = true := by
  cases isNumeral : numeral token.bytes with
  | some n =>
    rw [handled_numeral isNumeral,straight_scan _ n isNumeral]
    intro k scanned
    have served := asks_served unicode cfg token isNumeral scanned
    obtain ⟨n',_,numeral',_,_,number⟩ := (right _ _ _ _ (asks_line unicode token _)).1 _ served
    have same : n = n' := Option.some.inj (isNumeral.symm.trans numeral')
    rw [same]
    exact number
  | none =>
    rw [handled_other isNumeral]
    by_contra kept
    obtain ⟨sequence,others,k,parsed,clear,scanned⟩ := not_refused kept
    have line := asks_line unicode token none
    obtain ⟨why,bad⟩ := (right _ _ _ _ line).2 isNumeral rfl
    have answered := line.fetched cfg rfl
    rw [fetch_scanned parsed clear scanned] at answered
    have refusal : [Reply.tagged (text "a") "NO mailbox metadata unavailable"] = [.tagged (text "a") ("BAD " ++ why)] :=
      answered.symm.trans bad
    have texts := congrArg String.toList (Reply.tagged.inj (List.head_eq_of_cons_eq refusal)).2
    rw [String.toList_append] at texts
    exact absurd (List.head_eq_of_cons_eq texts) (by decide)

theorem handled_right (unicode : Unicode) (cfg : BridgeConfig) (token : Text) (sound : handled token = true) :
    Right (go unicode) cfg token := by
  intro s e tag items line
  have bad (none : numeral token = none) : ∃ why, (fetch (go unicode) s tag (token :: items) e).replies = [.tagged tag ("BAD " ++ why)] :=
    fetch_bad (.inr (handled_other none ▸ sound))
  constructor
  · intro m served
    unfold Serves at served
    cases authenticated : s.authenticated with
    | false =>
      rw [line.refused cfg authenticated] at served
      exact absurd served (tagged_serves _)
    | true =>
      rw [line.fetched cfg authenticated] at served
      cases isNumeral : numeral token with
      | none =>
        obtain ⟨why,only⟩ := bad isNumeral
        rw [only] at served
        exact absurd served (tagged_serves _)
      | some n =>
        obtain ⟨sequence,others,messages,parsed,scanned,listed,member⟩ := fetch_served served
        rw [handled_numeral isNumeral,straight_scan _ n isNumeral] at sound
        rw [numeral_fields isNumeral] at parsed
        rw [← List.head_eq_of_cons_eq parsed] at scanned
        exact ⟨n,messages,rfl,listed,member,sound _ scanned⟩
  · intro none authenticated
    rw [line.fetched cfg authenticated]
    exact bad none

-- The bridge does right by a token, whatever the line and the mailbox, exactly when it is
-- one of these.
theorem fetch_exactly (unicode : Unicode) (cfg : BridgeConfig) (token : Token) :
    Right (go unicode) cfg token.bytes ↔ handled token.bytes = true :=
  ⟨right_handled unicode cfg token,handled_right unicode cfg token.bytes⟩

def trailing : Token := ⟨text "12abc",by decide,by decide⟩

-- A token that is no numeral gets the header of message 12.
theorem prefix_served : numeral trailing.bytes = none ∧
    replies (go asciiTables) thunderbird signedIn (asks trailing.bytes (some [⟨12,[],[],[],[],[],[]⟩])) =
      [.untagged (.header ⟨12,[],[],[],[],[],[]⟩),.tagged (text "a") "OK FETCH completed"] := by decide +kernel

end ByosMail.ImapFetch
