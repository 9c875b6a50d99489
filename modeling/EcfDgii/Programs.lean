import Mathlib.Data.List.Basic

/-!
Programs that talk to an outside world, as trees of requests and replies.

An `Interface` lists what a program can ask and what each question is answered
with.  A `Program` is a tree: it returns, it throws a text, or it asks and goes
on with the reply.  Nothing here says who answers; `Execution` runs a program
against a world, and several programs against one world in any order.

What a program does is stated with a `Protocol`: which requests are allowed in
a state, and how a reply moves the state.  `Program.Follows` says that every
path of the tree respects the protocol, and that the results at the leaves
satisfy a postcondition; it composes through `bind` and `tryCatch`, so a long
procedure is verified one callee at a time.  The protocol used most is
`Protocol.logging`, whose state is the list of everything asked and answered so
far: a permission is then a statement about what the program has already seen.
-/

set_option autoImplicit false

namespace EcfDgii.Programs

/-- What a program can ask, and the type of the answer to each question. -/
structure Interface where
  Request : Type
  Reply : Request → Type

/-- One question with its answer. -/
structure Event (I : Interface) where
  request : I.Request
  reply : I.Reply request

/-- A program returns, throws, or asks and continues with the reply. -/
inductive Program (I : Interface) (α : Type) : Type
  | done (value : α)
  | throw (error : String)
  | ask (request : I.Request) (next : I.Reply request → Program I α)

variable {I : Interface} {α β γ : Type} {ρ : Type}

namespace Program

/-- Sequencing: the continuation runs at every returning leaf. -/
protected def bind : Program I α → (α → Program I β) → Program I β
  | done a, k => k a
  | throw e, _ => throw e
  | ask r next, k => ask r fun x => (next x).bind k

/-- Handling: the handler runs at every throwing leaf. -/
protected def tryCatch : Program I α → (String → Program I α) → Program I α
  | done a, _ => done a
  | throw e, h => h e
  | ask r next, h => ask r fun x => (next x).tryCatch h

instance : Monad (Program I) where
  pure := done
  bind := Program.bind

/-- Ask one question and return its answer. -/
def perform (r : I.Request) : Program I (I.Reply r) := ask r done

/-- Turn an error value into a throw. -/
def raise : Except String α → Program I α
  | .ok a => done a
  | .error e => throw e

@[simp] theorem pure_eq (a : α) : (pure a : Program I α) = done a := rfl

@[simp] theorem bind_done (a : α) (k : α → Program I β) : (done a : Program I α) >>= k = k a := rfl

@[simp] theorem bind_throw (e : String) (k : α → Program I β) :
    (throw e : Program I α) >>= k = throw e := rfl

@[simp] theorem bind_ask (r : I.Request) (next : I.Reply r → Program I α) (k : α → Program I β) :
    ask r next >>= k = ask r (fun x => next x >>= k) := rfl

end Program

/-! ## Protocols -/

/-- Which requests a state allows, and where a reply may lead. -/
structure Protocol (I : Interface) (ρ : Type) where
  permits : ρ → I.Request → Prop
  replies : ρ → (r : I.Request) → I.Reply r → ρ → Prop

/-- The state is the list of events so far; every reply is possible. -/
def Protocol.logging (permits : List (Event I) → I.Request → Prop) :
    Protocol I (List (Event I)) where
  permits := permits
  replies log r x log' := log' = log ++ [⟨r, x⟩]

namespace Program

/-- Every path of the program respects the protocol; returns satisfy `post`
and throws satisfy `exn` in the state they happen in. -/
def Follows (P : Protocol I ρ) (post : ρ → α → Prop) (exn : ρ → String → Prop) :
    ρ → Program I α → Prop
  | s, done a => post s a
  | s, throw e => exn s e
  | s, ask r next => P.permits s r ∧ ∀ x s', P.replies s r x s' → Follows P post exn s' (next x)

variable {P : Protocol I ρ} {post : ρ → α → Prop} {exn : ρ → String → Prop} {s : ρ}

@[simp] theorem follows_done (a : α) : Follows P post exn s (done a) ↔ post s a := Iff.rfl

@[simp] theorem follows_pure (a : α) : Follows P post exn s (pure a : Program I α) ↔ post s a :=
  Iff.rfl

@[simp] theorem follows_throw (e : String) :
    Follows P post exn s (throw e : Program I α) ↔ exn s e := Iff.rfl

theorem follows_ask (r : I.Request) (next : I.Reply r → Program I α) :
    Follows P post exn s (ask r next) ↔
      P.permits s r ∧ ∀ x s', P.replies s r x s' → Follows P post exn s' (next x) := Iff.rfl

@[simp] theorem follows_perform (r : I.Request) {post : ρ → I.Reply r → Prop} :
    Follows P post exn s (perform r) ↔
      P.permits s r ∧ ∀ x s', P.replies s r x s' → post s' x := Iff.rfl

@[simp] theorem follows_raise (x : Except String α) :
    Follows P post exn s (raise x : Program I α) ↔
      (∀ a, x = .ok a → post s a) ∧ (∀ e, x = .error e → exn s e) := by
  cases x <;> simp [raise]

theorem follows_bind {post : ρ → β → Prop} (p : Program I α) (k : α → Program I β) :
    Follows P post exn s (p >>= k) ↔
      Follows P (fun s' a => Follows P post exn s' (k a)) exn s p := by
  induction p generalizing s with
  | done a => exact Iff.rfl
  | throw e => exact Iff.rfl
  | ask r next ih =>
    exact and_congr Iff.rfl (forall₃_congr fun x s' _ => ih x)

theorem follows_raise_bind {post : ρ → β → Prop} (x : Except String α) (k : α → Program I β) :
    Follows P post exn s (raise x >>= k) ↔
      (∀ a, x = .ok a → Follows P post exn s (k a)) ∧ (∀ e, x = .error e → exn s e) := by
  cases x <;> simp [raise]

theorem follows_tryCatch (p : Program I α) (h : String → Program I α) :
    Follows P post exn s (p.tryCatch h) ↔
      Follows P post (fun s' e => Follows P post exn s' (h e)) s p := by
  induction p generalizing s with
  | done a => exact Iff.rfl
  | throw e => exact Iff.rfl
  | ask r next ih =>
    exact and_congr Iff.rfl (forall₃_congr fun x s' _ => ih x)

theorem Follows.mono {post' : ρ → α → Prop} {exn' : ρ → String → Prop} {p : Program I α}
    (h : Follows P post exn s p) (hp : ∀ s a, post s a → post' s a)
    (he : ∀ s e, exn s e → exn' s e) : Follows P post' exn' s p := by
  induction p generalizing s with
  | done a => exact hp s a h
  | throw e => exact he s e h
  | ask r next ih => exact ⟨h.1, fun x s' hr => ih x (h.2 x s' hr)⟩

/-- Two verifications of one program are one. -/
theorem Follows.and {P' : Protocol I ρ} {Q : Protocol I ρ} {p : Program I α}
    (h : Follows P post exn s p) (h' : Follows P' post exn s p)
    (permits : ∀ s r, P.permits s r → P'.permits s r → Q.permits s r)
    (replies : ∀ s r x s', Q.replies s r x s' → P.replies s r x s' ∧ P'.replies s r x s') :
    Follows Q post exn s p := by
  induction p generalizing s with
  | done a => exact h
  | throw e => exact h
  | ask r next ih =>
    exact ⟨permits s r h.1 h'.1, fun x s' happens =>
      ih x (h.2 x s' (replies s r x s' happens).1) (h'.2 x s' (replies s r x s' happens).2)⟩

/-- The rule for a call: what the callee guarantees is what the rest needs. -/
theorem Follows.bind {M : ρ → α → Prop} {post : ρ → β → Prop} {p : Program I α}
    {k : α → Program I β} (h : Follows P M exn s p)
    (hk : ∀ s' a, M s' a → Follows P post exn s' (k a)) : Follows P post exn s (p >>= k) :=
  (follows_bind p k).mpr (h.mono hk fun _ _ he => he)

/-- The rule for a protected call. -/
theorem Follows.tryCatch {M : ρ → String → Prop} {p : Program I α}
    {handler : String → Program I α} (h : Follows P post M s p)
    (hh : ∀ s' e, M s' e → Follows P post exn s' (handler e)) :
    Follows P post exn s (p.tryCatch handler) :=
  (follows_tryCatch p handler).mpr (h.mono (fun _ _ hp => hp) hh)

/-- The rule for a branch. -/
theorem Follows.ite {c : Prop} [Decidable c] {p q : Program I α} (yes : c → Follows P post exn s p)
    (no : ¬ c → Follows P post exn s q) : Follows P post exn s (if c then p else q) := by
  split
  · next h => exact yes h
  · next h => exact no h

end Program

/-! ## Requests of one kind -/

namespace Program

variable {S : I.Request → Prop}

/-- Every request the program may make is of one kind. -/
def Only (S : I.Request → Prop) : Program I α → Prop
  | done _ => True
  | throw _ => True
  | ask r next => S r ∧ ∀ x, Only S (next x)

@[simp] theorem only_done (a : α) : (done a : Program I α).Only S := trivial

@[simp] theorem only_pure (a : α) : (pure a : Program I α).Only S := trivial

@[simp] theorem only_throw (e : String) : (throw e : Program I α).Only S := trivial

@[simp] theorem only_perform (r : I.Request) : (perform r : Program I (I.Reply r)).Only S ↔ S r :=
  ⟨fun h => h.1, fun h => ⟨h, fun _ => trivial⟩⟩

@[simp] theorem only_raise (x : Except String α) : (raise x : Program I α).Only S := by
  cases x <;> trivial

theorem Only.mono {T : I.Request → Prop} {p : Program I α} (h : p.Only S)
    (wider : ∀ r, S r → T r) : p.Only T := by
  induction p with
  | done a => trivial
  | throw e => trivial
  | ask r next ih => exact ⟨wider r h.1, fun x => ih x (h.2 x)⟩

theorem Only.bind {p : Program I α} {k : α → Program I β} (h : p.Only S)
    (rest : ∀ a, (k a).Only S) : (p >>= k).Only S := by
  induction p with
  | done a => exact rest a
  | throw e => trivial
  | ask r next ih => exact ⟨h.1, fun x => ih x (h.2 x)⟩

theorem Only.tryCatch {p : Program I α} {handler : String → Program I α} (h : p.Only S)
    (rest : ∀ e, (handler e).Only S) : (p.tryCatch handler).Only S := by
  induction p with
  | done a => trivial
  | throw e => exact rest e
  | ask r next ih => exact ⟨h.1, fun x => ih x (h.2 x)⟩

theorem Only.ite {c : Prop} [Decidable c] {p q : Program I α} (yes : c → p.Only S)
    (no : ¬ c → q.Only S) : (if c then p else q).Only S := by
  split
  · next h => exact yes h
  · next h => exact no h

/-- A handler around a sequence: around the first part, and then around what
follows its result. -/
theorem tryCatch_bind (p : Program I α) (k : α → Program I β) (handler : String → Program I β) :
    (p >>= k).tryCatch handler =
      (p.bind fun a => done (Except.ok a)).tryCatch (fun e => done (.error e)) >>= fun
        | .ok a => (k a).tryCatch handler
        | .error e => handler e := by
  induction p with
  | done a => rfl
  | throw e => rfl
  | ask r next ih => exact congrArg (ask r) (funext ih)

theorem bind_assoc (p : Program I α) (k : α → Program I β) (l : β → Program I γ) :
    p >>= k >>= l = p >>= fun a => k a >>= l := by
  induction p with
  | done a => rfl
  | throw e => rfl
  | ask r next ih => exact congrArg (ask r) (funext ih)

end Program

/-! ## The logging protocol -/

variable {permits : List (Event I) → I.Request → Prop} {log : List (Event I)}
  {post : List (Event I) → α → Prop} {exn : List (Event I) → String → Prop}

/-- A program of one kind of request follows the protocol that permits them, and
keeps what a longer log keeps. -/
theorem Program.Only.follows {S : I.Request → Prop} {P : List (Event I) → Prop} {p : Program I α}
    (h : p.Only S) (allowed : ∀ log r, S r → permits log r)
    (kept : ∀ log e, P log → P (log ++ [e])) (holds : P log) :
    p.Follows (.logging permits) (fun b _ => P b) (fun b _ => P b) log := by
  induction p generalizing log with
  | done a => exact holds
  | throw e => exact holds
  | ask r next ih =>
    refine ⟨allowed log r h.1, fun x log' same => ih x (h.2 x) ?_⟩
    rw [show log' = log ++ [⟨r, x⟩] from same]
    exact kept _ _ holds

/-- What every permitted event satisfies holds of all that a program leaves in
its log. -/
theorem Program.Follows.remembers {Q : Event I → Prop} {p : Program I α}
    (h : p.Follows (.logging permits) post exn log)
    (permitted : ∀ a e, permits a e.request → Q e) (seen : ∀ e ∈ log, Q e) :
    p.Follows (.logging permits) (fun b a => post b a ∧ ∀ e ∈ b, Q e)
      (fun b what => exn b what ∧ ∀ e ∈ b, Q e) log := by
  induction p generalizing log with
  | done a => exact ⟨h, seen⟩
  | throw e => exact ⟨h, seen⟩
  | ask r next ih =>
    refine ⟨h.1, fun x log' same => ih x (h.2 x log' same) ?_⟩
    rw [show log' = log ++ [⟨r, x⟩] from same]
    intro e member
    rcases List.mem_append.mp member with old | new
    · exact seen e old
    · rw [List.mem_singleton.mp new]
      exact permitted log _ h.1

@[simp] theorem logging_permits {r : I.Request} :
    (Protocol.logging permits).permits log r ↔ permits log r := Iff.rfl

/-- Under the logging protocol a question needs its permission, and whatever
the answer is goes to the end of the log. -/
theorem follows_logging_ask (r : I.Request) (next : I.Reply r → Program I α) :
    Program.Follows (Protocol.logging permits) post exn log (.ask r next) ↔
      permits log r ∧
        ∀ x, Program.Follows (Protocol.logging permits) post exn (log ++ [⟨r, x⟩]) (next x) := by
  simp only [Program.follows_ask, Protocol.logging]
  exact and_congr Iff.rfl ⟨fun h x => h x _ rfl, fun h x s' hs => hs ▸ h x⟩

/-- The same for a question in the middle of a procedure. -/
theorem follows_logging_bind {post : List (Event I) → β → Prop} (r : I.Request)
    (k : I.Reply r → Program I β) :
    Program.Follows (Protocol.logging permits) post exn log (.perform r >>= k) ↔
      permits log r ∧
        ∀ x, Program.Follows (Protocol.logging permits) post exn (log ++ [⟨r, x⟩]) (k x) :=
  follows_logging_ask r k

@[simp] theorem follows_logging_perform (r : I.Request)
    {post : List (Event I) → I.Reply r → Prop} :
    Program.Follows (Protocol.logging permits) post exn log (.perform r) ↔
      permits log r ∧ ∀ x, post (log ++ [⟨r, x⟩]) x :=
  follows_logging_ask r _

/-- Where everything is permitted, every program follows. -/
theorem Program.follows_of_permitted {p : Program I α} (all : ∀ log r, permits log r) :
    p.Follows (.logging permits) (fun _ _ => True) (fun _ _ => True) log := by
  induction p generalizing log with
  | done a => trivial
  | throw e => trivial
  | ask r next ih => exact ⟨all log r, fun x _ _ => ih x⟩

end EcfDgii.Programs
