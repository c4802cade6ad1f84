import Mathlib.Data.Fin.Tuple.Basic
import ByosMail.OutboundDelivery

-- What poll_once makes of an SMTP failure, whose class it guesses from the error's text.
namespace ByosMail.SmtpReplies
open OutboundQueue

inductive Severity where
  | transient | permanent
  deriving DecidableEq

-- 4yz and 5yz.
structure Code where
  severity : Severity
  category : Fin 10
  detail : Fin 10
  deriving DecidableEq

def digit (d : Fin 10) : Char := Char.ofNat (48 + d)

def Code.text (code : Code) : String :=
  String.ofList [match code.severity with | .transient => '4' | .permanent => '5',digit code.category,digit code.detail]

def Code.name (code : Code) : String :=
  match code.severity with
  | .transient => "transient error ("
  | .permanent => "permanent error ("

-- A reply, or what the error says when there was none.
inductive Failure where
  | reply (code : Code) (text : String)
  | noReply (message : String)

-- Display of lettre's error for a reply.
structure Lettre where
  display : Code → String → String
  shown : ∀ code text, display code text = code.name ++ code.text ++ "): " ++ text

def Lettre.message (lettre : Lettre) : Failure → String
  | .reply code text => lettre.display code text
  | .noReply message => message

-- The row and the log once the statements of an iteration are through.
def settled (now : Int) (row : QueueRow) (log : List LogEntry) (statements : List Statement) : QueueRow × List LogEntry :=
  statements.foldl (fun (row,log) statement =>
    match statement with
    | .log entry => (row,log ++ [entry])
    | other => (other.set now row,log)) (row,log)

def Retried (now : Int) (row : QueueRow) (log : List LogEntry) (out : Outcome) : Prop :=
  (settled now row log out.statements).1.status = .pending ∧
    (settled now row log out.statements).1.nextAttemptAt = now + 60 * (row.attempts + 1) ∧
    (settled now row log out.statements).2 = log

def Bounced (now : Int) (row : QueueRow) (log : List LogEntry) (out : Outcome) : Prop :=
  (settled now row log out.statements).1.status = .bounced ∧
    ∃ message, (settled now row log out.statements).2 = log ++ [bouncedEntry row message]

-- For every row worked on and everything else an iteration may meet.
def Right (lettre : Lettre) (failure : Failure) : Prop :=
  ∀ env row signed now log, row.status = .pending → env.sendRaw signed = .error (lettre.message failure) →
    match failure with
    | .reply code _ =>
      (Retried now row log (sendSigned env row signed) ↔ code.severity = .transient) ∧
      (Bounced now row log (sendSigned env row signed) ↔ code.severity = .permanent)
    | .noReply _ => Retried now row log (sendSigned env row signed)

-- 451 and 421, and elsewhere one of the marks in the text of a 4yz reply and none in that
-- of a 5yz one; without a reply a mark in the message.
def guessed : Failure → Bool
  | .reply ⟨.transient,category,detail⟩ text => (category == 5 && detail == 1) || (category == 2 && detail == 1) || isTemp text
  | .reply ⟨.permanent,_,_⟩ text => !isTemp text
  | .noReply message => isTemp message

section
variable {part a b : List Char} {sep : Char}

theorem prefix_split (clear : sep ∉ part) (front : part <+: a ++ sep :: b) : part <+: a := by
  induction a generalizing part with
  | nil =>
    cases part with
    | nil => exact List.prefix_rfl
    | cons c more =>
      obtain ⟨same,-⟩ := List.cons_prefix_cons.mp front
      exact absurd (same ▸ List.mem_cons_self) clear
  | cons d rest ih =>
    cases part with
    | nil => exact List.nil_prefix
    | cons c more =>
      obtain ⟨same,later⟩ := List.cons_prefix_cons.mp front
      exact List.cons_prefix_cons.mpr ⟨same,ih (fun member => clear (List.mem_cons_of_mem _ member)) later⟩

theorem infix_split (clear : sep ∉ part) : part <:+: a ++ sep :: b ↔ part <:+: a ∨ part <:+: b := by
  constructor
  · intro inside
    induction a with
    | nil =>
      rcases List.infix_cons_iff.mp inside with front | later
      · have empty : part <+: [] := prefix_split clear front
        exact .inl empty.isInfix
      · exact .inr later
    | cons c rest ih =>
      rcases List.infix_cons_iff.mp inside with front | later
      · have whole : part <+: c :: rest := prefix_split clear front
        exact .inl whole.isInfix
      · rcases ih later with left | right
        · exact .inl (left.trans (List.suffix_cons c rest).isInfix)
        · exact .inr right
  · intro either
    rcases either with left | right
    · exact left.trans (List.prefix_append a _).isInfix
    · exact right.trans ((List.suffix_cons sep b).trans (List.suffix_append a _)).isInfix

end

section
variable {lettre : Lettre}

theorem mentions_split (front text : String) (single : mark.toList = [sep]) (clear : sep ∉ part.toList) :
    mentions (front ++ mark ++ text) part = (mentions front part || mentions text part) := by
  have parts : (front ++ mark ++ text).toList = front.toList ++ sep :: text.toList := by
    simp only [String.toList_append,single]
    exact List.append_assoc _ _ _
  have either : part.toList <:+: (front ++ mark ++ text).toList ↔ part.toList <:+: front.toList ∨ part.toList <:+: text.toList := by
    rw [parts]
    exact infix_split clear
  unfold mentions
  simp only [either,Bool.decide_or]

theorem isTemp_split (front text : String) (single : mark.toList = [sep])
    (clear : ∀ part ∈ ["451","421","4.","timeout","connection"], sep ∉ part.toList) :
    isTemp (front ++ mark ++ text) = (isTemp front || isTemp text) := by
  have apart (part : String) (member : part ∈ ["451","421","4.","timeout","connection"]) :
      mentions (front ++ mark ++ text) part = (mentions front part || mentions text part) :=
    mentions_split front text single (clear part member)
  unfold isTemp
  rw [apart "451" (by decide),apart "421" (by decide),apart "4." (by decide),apart "timeout" (by decide),
    apart "connection" (by decide)]
  cases mentions front "451" <;> cases mentions front "421" <;> cases mentions front "4." <;> cases mentions front "timeout" <;>
    cases mentions front "connection" <;> simp

theorem code_temp : ∀ category detail : Fin 10,
    isTemp (Code.text ⟨.transient,category,detail⟩ ++ "):") =
      ((category == 5 && detail == 1) || (category == 2 && detail == 1)) ∧
    isTemp (Code.text ⟨.permanent,category,detail⟩ ++ "):") = false := by
  have marks (text : String) : isTemp text = (decide (['4','5','1'] <:+: text.toList) || decide (['4','2','1'] <:+: text.toList) ||
      decide (['4','.'] <:+: text.toList) || decide ("timeout".toList <:+: text.toList) ||
      decide ("connection".toList <:+: text.toList)) := rfl
  -- The characters of a code are known without going through its bytes.
  simp only [marks,String.toList_append,Code.text,String.toList_ofList]
  decide +kernel

theorem front_temp (code : Code) : isTemp (code.name ++ code.text ++ "):") = isTemp (code.text ++ "):") := by
  have split (front : String) : isTemp (front ++ "(" ++ (code.text ++ "):")) = (isTemp front || isTemp (code.text ++ "):")) :=
    isTemp_split front _ rfl (by decide)
  rw [String.append_assoc]
  unfold Code.name
  cases code.severity with
  | transient =>
    have words : isTemp "transient error " = false := by decide +kernel
    exact (split "transient error ").trans (by rw [words,Bool.false_or])
  | permanent =>
    have words : isTemp "permanent error " = false := by decide +kernel
    exact (split "permanent error ").trans (by rw [words,Bool.false_or])

theorem message_temp (code : Code) (text : String) : isTemp (lettre.message (.reply code text)) =
    (isTemp (code.name ++ code.text ++ "):") || isTemp text) := by
  have cut : lettre.message (.reply code text) = code.name ++ code.text ++ "):" ++ " " ++ text := by
    have mark : "): " = "):" ++ " " := rfl
    rw [Lettre.message,lettre.shown,mark]
    simp only [String.append_assoc]
  rw [cut,isTemp_split _ _ rfl (by decide)]

section
variable {env : RowEnv} {row : QueueRow} {signed : List UInt8} {msg : String} (now : Int) (log : List LogEntry)

theorem retried_temp (fails : env.sendRaw signed = .error msg) (temp : isTemp msg = true) (pending : row.status = .pending) :
    Retried now row log (sendSigned env row signed) := by
  have out : sendSigned env row signed = ⟨[.tempRetry row.id],false⟩ := by simp only [sendSigned,fails,temp,if_true]
  rw [out]
  exact ⟨pending,rfl,rfl⟩

theorem bounced_lasting (fails : env.sendRaw signed = .error msg) (lasting : isTemp msg = false) :
    Bounced now row log (sendSigned env row signed) := by
  have out : sendSigned env row signed = bounceLogged row msg := by
    simp only [sendSigned,fails,lasting,Bool.false_eq_true,if_false]
  rw [out]
  exact ⟨rfl,msg,rfl⟩

theorem retried_iff (fails : env.sendRaw signed = .error msg) (pending : row.status = .pending) :
    Retried now row log (sendSigned env row signed) ↔ isTemp msg = true := by
  refine ⟨fun retried => ?_,fun temp => retried_temp now log fails temp pending⟩
  cases guess : isTemp msg with
  | true => rfl
  | false =>
    have both : (settled now row log (sendSigned env row signed).statements).1.status = .bounced :=
      (bounced_lasting now log fails guess).1
    rw [retried.1] at both
    cases both

theorem bounced_iff (fails : env.sendRaw signed = .error msg) (pending : row.status = .pending) :
    Bounced now row log (sendSigned env row signed) ↔ isTemp msg = false := by
  refine ⟨fun bounced => ?_,fun lasting => bounced_lasting now log fails lasting⟩
  cases guess : isTemp msg with
  | false => rfl
  | true =>
    have both := (retried_temp now log fails guess pending).1
    rw [bounced.1] at both
    cases both

end

theorem right_iff (failure : Failure) : Right lettre failure ↔
    match failure with
    | .reply code _ => (isTemp (lettre.message failure) = true ↔ code.severity = .transient)
    | .noReply _ => isTemp (lettre.message failure) = true := by
  have other : ∀ code : Code, ¬code.severity = .transient ↔ code.severity = .permanent := by
    intro code
    cases code.severity <;> simp
  constructor
  · intro right
    have one := right (answering (.error (lettre.message failure))) dueRow [] 0 [] rfl rfl
    cases failure with
    | reply code text =>
      have fails : (answering (.error (lettre.message (.reply code text)))).sendRaw [] = .error (lettre.message (.reply code text)) := rfl
      exact (retried_iff 0 [] fails rfl).symm.trans one.1
    | noReply message =>
      have fails : (answering (.error (lettre.message (.noReply message)))).sendRaw [] = .error (lettre.message (.noReply message)) := rfl
      exact (retried_iff 0 [] fails rfl).mp one
  · intro guess env row signed now log pending fails
    cases failure with
    | reply code text =>
      have class_ : isTemp (lettre.message (.reply code text)) = true ↔ code.severity = .transient := guess
      refine ⟨(retried_iff now log fails pending).trans class_,(bounced_iff now log fails pending).trans ?_⟩
      rw [← other code,← class_,Bool.not_eq_true]
    | noReply message => exact (retried_iff now log fails pending).mpr guess

end

-- A failure is handled by its class exactly when the guess from its text is right.
theorem replies_exactly (lettre : Lettre) (failure : Failure) : Right lettre failure ↔ guessed failure = true := by
  rw [right_iff]
  cases failure with
  | reply code text =>
    obtain ⟨severity,category,detail⟩ := code
    have front := code_temp category detail
    simp only [message_temp,front_temp]
    cases severity with
    | transient =>
      rw [front.1]
      simp [guessed]
    | permanent =>
      rw [front.2]
      simp [guessed]
  | noReply message => exact Iff.rfl

def lettre : Lettre := ⟨fun code text => code.name ++ code.text ++ "): " ++ text,fun _ _ => rfl⟩

-- A greylisting server's 450, and a refusal that names a host.
theorem misread : ¬Right lettre (.reply ⟨.transient,5,0⟩ "mailbox busy") ∧
    ¬Right lettre (.reply ⟨.permanent,5,0⟩ "blocked, see mx4.example.org") ∧ ¬Right lettre (.noReply "Connection error: refused") := by
  rw [right_iff,right_iff,right_iff]
  decide +kernel

end ByosMail.SmtpReplies
