import Mathlib.Logic.Relation
import Mathlib.Logic.Function.Basic
import Mathlib.Data.List.Forall2

namespace FlowHub.Txn

open List Except

/-- What a transactional program runs against: the database, the names of its
transactions, the services it asks and the exceptions it can meet. -/
structure Interface where
  (State Tag Query : Type)
  Answer : Query → Type
  Fault : Type

/-- A program whose only effects are committed transactions and questions to
outside services. Between two of them it computes and nothing else happens. -/
inductive Proc (I : Interface) (α : Type) where
  | done (a : α)
  | raise (e : I.Fault)
  | txn (tag : I.Tag) (body : I.State → Except I.Fault I.State)
      (next : I.State → Proc I α) (fail : I.Fault → Proc I α)
  | ask (q : I.Query) (next : I.Answer q → Proc I α) (fail : I.Fault → Proc I α)

variable {I : Interface} {α β : Type}

variable {as : List α} {b : β}

theorem bind_eq_ok {f : α → Except ε β} : (x >>= f) = .ok b ↔ ∃ a, x = .ok a ∧ f a = .ok b := by
  cases x <;> simp [Bind.bind, Except.bind]

theorem map_eq_ok {x : Except ε α} : x.map f = .ok b ↔ ∃ a, x = .ok a ∧ f a = b := by
  cases x <;> simp [Except.map]

theorem bind_eq_error {f : α → Except ε β} :
    (x >>= f) = .error e ↔ x = .error e ∨ ∃ a, x = .ok a ∧ f a = .error e := by
  cases x <;> simp [Bind.bind, Except.bind]

theorem mapM_error {ε : Type} {f : α → Except ε β} {e : ε}
    (h : as.mapM f = .error e) : ∃ a ∈ as, f a = .error e := by
  induction as with
  | nil => cases h
  | cons a rest ih =>
    rw [mapM_cons] at h
    rcases bind_eq_error.mp h with ha | ⟨b, -, h⟩
    · exact ⟨a, mem_cons_self, ha⟩
    rcases bind_eq_error.mp h with hrest | ⟨bs, -, h⟩
    · obtain ⟨a', ha', hf⟩ := ih hrest
      exact ⟨a', mem_cons_of_mem _ ha', hf⟩
    · cases h

theorem mapM_ok {ε : Type} {f : α → Except ε β} {bs : List β} :
    as.mapM f = .ok bs ↔ Forall₂ (fun a b => f a = .ok b) as bs := by
  induction as generalizing bs with
  | nil =>
    rw [mapM_nil, forall₂_nil_left_iff]
    exact ⟨fun h => (ok.inj h).symm, fun h => congrArg ok h.symm⟩
  | cons a rest ih =>
    simp only [mapM_cons, bind_eq_ok, forall₂_cons_left_iff, ih]
    constructor
    · rintro ⟨b, hb, more, hmore, hbs⟩
      exact ⟨b, more, hb, hmore, (ok.inj hbs).symm⟩
    · rintro ⟨b, more, hb, hmore, rfl⟩
      exact ⟨b, hb, more, hmore, rfl⟩

/-- Related results of a whole list are related results of each of its members. -/
theorem mapM_ok_iff {ε : Type} {f : α → Except ε β} {R : α → β → Prop} :
    (∃ bs, as.mapM f = .ok bs ∧ Forall₂ R as bs) ↔ ∀ a ∈ as, ∃ b, f a = .ok b ∧ R a b := by
  simp only [mapM_ok]
  induction as with
  | nil => simp
  | cons a rest ih =>
    simp only [forall_mem_cons, ← ih, forall₂_cons_left_iff]
    constructor
    · rintro ⟨_, ⟨b, bs, hb, hbs, rfl⟩, c, cs, hc, hcs, heq⟩
      obtain ⟨rfl, rfl⟩ := cons.inj heq
      exact ⟨⟨b, hb, hc⟩, bs, hbs, hcs⟩
    · rintro ⟨⟨b, hb, hc⟩, bs, hbs, hcs⟩
      exact ⟨b :: bs, ⟨b, bs, hb, hbs, rfl⟩, b, bs, hc, hcs, rfl⟩

theorem mem_of_mapM {ε : Type} {f : α → Except ε β} {bs : List β}
    (h : as.mapM f = .ok bs) (hb : b ∈ bs) : ∃ a ∈ as, f a = .ok b := by
  have hall := mapM_ok.mp h
  clear h
  induction hall with
  | nil => cases hb
  | @cons a c _ _ hac _ ih =>
    rcases mem_cons.mp hb with rfl | hb
    · exact ⟨a, mem_cons_self, hac⟩
    · obtain ⟨a', ha', hf⟩ := ih hb
      exact ⟨a', mem_cons_of_mem _ ha', hf⟩

/-- What every round of a fold keeps, the fold keeps. -/
theorem foldlM_keeps {f : β → α → Except ε β} {P : β → Prop}
    (hround : ∀ a ∈ as, ∀ b c, P b → f b a = .ok c → P c) (hb : P b)
    (h : as.foldlM f b = .ok c) : P c := by
  induction as generalizing b with
  | nil =>
    cases h
    exact hb
  | cons a rest ih =>
    rw [foldlM_cons] at h
    obtain ⟨d, hd, hrest⟩ := bind_eq_ok.mp h
    have hkept := hround a mem_cons_self b d hb hd
    exact ih (fun a ha => hround a (mem_cons_of_mem _ ha)) hkept hrest

namespace Proc

/-- `try p except h else f`: an exception of `f` or of `h` itself is not caught. -/
def tryElse : Proc I α → (α → Proc I β) → (I.Fault → Proc I β) → Proc I β
  | .done a, f, _ => f a
  | .raise e, _, h => h e
  | .txn tag body next fail, f, h =>
    .txn tag body (fun s => (next s).tryElse f h) (fun e => (fail e).tryElse f h)
  | .ask q next fail, f, h =>
    .ask q (fun a => (next a).tryElse f h) (fun e => (fail e).tryElse f h)

def bind (p : Proc I α) (f : α → Proc I β) : Proc I β := p.tryElse f .raise

def rescue (p : Proc I α) (h : I.Fault → Proc I α) : Proc I α := p.tryElse .done h

instance : Monad (Proc I) where
  pure := .done
  bind := .bind

/-- One transaction: read the database, decide, write, commit. The answer is
computed from the same read. -/
def transact (tag : I.Tag) (f : I.State → Except I.Fault (I.State × α)) : Proc I α :=
  .txn tag (fun s => (f s).map Prod.fst)
    (fun s => match f s with
      | .ok (_, a) => .done a
      | .error e => .raise e)
    .raise

/-- A transaction that reads and writes nothing. -/
def consult (tag : I.Tag) (f : I.State → Except I.Fault α) : Proc I α :=
  transact tag fun s => (f s).map (s, ·)

def request (q : I.Query) : Proc I (I.Answer q) :=
  .ask q .done .raise

def ofExcept : Except I.Fault α → Proc I α
  | .ok a => .done a
  | .error e => .raise e

/-- What a program at its end returned. -/
def result : Proc I α → Option α
  | .done a => some a
  | _ => none

/-- What a program at its end raised. -/
def fault : Proc I α → Option I.Fault
  | .raise e => some e
  | _ => none

@[simp] theorem pure_eq (a : α) : (pure a : Proc I α) = .done a := rfl

@[simp] theorem bind_eq (p : Proc I α) (f : α → Proc I β) : p >>= f = p.bind f := rfl

theorem tryElse_done_raise (p : Proc I α) : p.tryElse .done .raise = p := by
  induction p with
  | done | raise => rfl
  | txn tag body next fail ihn ihf => simp only [tryElse, ihn, ihf]
  | ask q next fail ihn ihf => simp only [tryElse, ihn, ihf]

end Proc

inductive Label (I : Interface) where
  | commit (tag : I.Tag)
  | rollback (tag : I.Tag) (e : I.Fault)
  | answer (q : I.Query) (a : I.Answer q)
  | failure (q : I.Query) (e : I.Fault)

/-- What happened, and the database it happened in. -/
structure Event (I : Interface) where
  before : I.State
  label : Label I

structure World (I : Interface) where
  state : I.State
  past : List (Event I)

def World.initial (s : I.State) : World I := ⟨s, []⟩

def World.log (w : World I) (label : Label I) (s : I.State) : World I :=
  ⟨s, w.past ++ [⟨w.state, label⟩]⟩

@[simp] theorem World.log_state (w : World I) (l : Label I) (s : I.State) : (w.log l s).state = s := rfl

@[simp] theorem World.log_past (w : World I) (l : Label I) (s : I.State) :
    (w.log l s).past = w.past ++ [⟨w.state, l⟩] := rfl

@[simp] theorem World.initial_past (s : I.State) : (World.initial s).past = [] := rfl

@[simp] theorem World.initial_state (s : I.State) : (World.initial s).state = s := rfl

/-- A transaction either commits its body or is rolled back, by its body's own
exception or by the database's. A service answers or fails. -/
inductive Step : Proc I α → World I → Proc I α → World I → Prop
  | commit {tag body next fail} {w : World I} {s : I.State} (h : body w.state = .ok s) :
      Step (.txn tag body next fail) w (next w.state) (w.log (.commit tag) s)
  | rollback {tag body next fail} {w : World I} (e : I.Fault) :
      Step (.txn tag body next fail) w (fail e) (w.log (.rollback tag e) w.state)
  | answer {q next fail} {w : World I} (a : I.Answer q) :
      Step (.ask q next fail) w (next a) (w.log (.answer q a) w.state)
  | failure {q next fail} {w : World I} (e : I.Fault) :
      Step (.ask q next fail) w (fail e) (w.log (.failure q e) w.state)

/-- Any number of steps of one program. Stopping early is a crash. -/
inductive Steps : Proc I α → World I → Proc I α → World I → Prop
  | refl (p w) : Steps p w p w
  | step {p q r : Proc I α} {w v u : World I} : Step p w q v → Steps q v r u → Steps p w r u

/-- Calls one after the other, each run to its end or to a crash. -/
inductive Session (calls : Proc I α → Prop) : World I → World I → Prop
  | start (w) : Session calls w w
  | call {w v u : World I} {p q : Proc I α} : Session calls w v → calls p → Steps p v q u → Session calls w u

variable {w : World I}

/-- A transaction whose body succeeds can commit and hand its answer on. -/
theorem Step.transact (h : f w.state = .ok (s, a)) (k : α → Proc I β) :
    Step ((Proc.transact tag f).bind k) w (k a) (w.log (.commit tag) s) := by
  have hbody : (f w.state).map Prod.fst = .ok s := by
    rw [h]
    rfl
  have hnext : Step ((Proc.transact tag f).bind k) w
      (Proc.tryElse (match f w.state with
        | .ok (_, a) => .done a
        | .error e => .raise e) k .raise) (w.log (.commit tag) s) := .commit hbody
  simp only [h] at hnext
  exact hnext

/-- A fixed world outside: which commits the database refuses, and what each
service says at each point of the history. -/
structure Surroundings (I : Interface) where
  refuse : World I → I.Tag → Option I.Fault
  answer : World I → (q : I.Query) → Except I.Fault (I.Answer q)

/-- Run a program against fixed surroundings for at most `n` steps. -/
def replay (env : Surroundings I) : Nat → Proc I α → World I → Proc I α × World I
  | 0, p, w => (p, w)
  | _ + 1, .done a, w => (.done a, w)
  | _ + 1, .raise e, w => (.raise e, w)
  | n + 1, .txn tag body next fail, w =>
    match env.refuse w tag with
    | some e => replay env n (fail e) (w.log (.rollback tag e) w.state)
    | none =>
      match body w.state with
      | .ok s => replay env n (next w.state) (w.log (.commit tag) s)
      | .error e => replay env n (fail e) (w.log (.rollback tag e) w.state)
  | n + 1, .ask q next fail, w =>
    match env.answer w q with
    | .ok a => replay env n (next a) (w.log (.answer q a) w.state)
    | .error e => replay env n (fail e) (w.log (.failure q e) w.state)

theorem replay_steps (env : Surroundings I) (n : Nat) (p : Proc I α) (w : World I) :
    Steps p w (replay env n p w).1 (replay env n p w).2 := by
  induction n generalizing p w with
  | zero => exact .refl p w
  | succ n ih =>
    cases p with
    | done a => exact .refl _ _
    | raise e => exact .refl _ _
    | txn tag body next fail =>
      simp only [replay]
      split
      · exact .step (.rollback _) (ih _ _)
      split
      · rename_i s hs
        exact .step (.commit hs) (ih _ _)
      · exact .step (.rollback _) (ih _ _)
    | ask q next fail =>
      simp only [replay]
      split
      · exact .step (.answer _) (ih _ _)
      · exact .step (.failure _) (ih _ _)

theorem replay_done {env : Surroundings I} {n : Nat} {p : Proc I α} (default : α)
    (h : (replay env n p w).1.result.isSome = true) :
    Steps p w (.done ((replay env n p w).1.result.getD default)) (replay env n p w).2 := by
  have hsteps := replay_steps env n p w
  cases hp : (replay env n p w).1 with
  | done b =>
    rw [hp] at hsteps
    exact hsteps
  | raise | txn | ask =>
    rw [hp] at h
    cases h

theorem replay_raised (h : (replay env n p w).1.fault = some e) :
    Steps p w (.raise e) (replay env n p w).2 := by
  have hsteps := replay_steps env n p w
  cases hp : (replay env n p w).1 with
  | raise f =>
    rw [hp] at hsteps h
    cases h
    exact hsteps
  | done | txn | ask =>
    rw [hp] at h
    cases h

end FlowHub.Txn
