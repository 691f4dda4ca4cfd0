import Mathlib.Logic.Relation

/-!
# Programs of database statements

Library `Relational`. A process is a tree of statements, each of which reads the committed
rows overlaid with the process's own writes, takes locks and adds writes; `commit` publishes
the writes, and `throw` is an exception that leaves the open transaction to be rolled back.
The tree says what the process does; what other processes do between two of its statements
is said by the interleaving semantics.
-/

namespace Relational

/-- What a statement is executed with: the server clock and the choices the environment
makes for it, such as a generated identifier. -/
structure Env (Supply : Type) where
  now : Int
  supply : Supply

/-- One statement on databases `D` with result `β`. `result` is `none` when the statement
throws; `write` is the update it leaves in the open transaction. -/
structure Stmt (D Lock Supply β : Type) where
  locks : Env Supply → D → List Lock := fun _ _ ↦ []
  result : Env Supply → D → Option β
  write : Env Supply → D → D → D := fun _ _ ↦ id

/-- A statement that takes no locks, writes nothing and never throws. -/
structure Stmt.Reads {D Lock Supply β : Type} (s : Stmt D Lock Supply β) : Prop where
  locks : ∀ e d, s.locks e d = []
  write : ∀ e d, s.write e d = id
  total : ∀ e d, (s.result e d).isSome

/-- Processes over databases `D`, as trees of statements with transaction boundaries. -/
inductive Tx (D Lock Supply : Type) (α : Type) where
  | pure (value : α)
  | throw
  | stmt (locks : Env Supply → D → List Lock) (write : Env Supply → D → D → D)
      (next : Env Supply → D → Tx D Lock Supply α)
  | commit (next : Tx D Lock Supply α)

namespace Tx

variable {D Lock Supply : Type} {α β γ : Type}

/-- Sequencing continues at the leaves. -/
def bind : Tx D Lock Supply α → (α → Tx D Lock Supply β) → Tx D Lock Supply β
  | .pure a, f => f a
  | .throw, _ => .throw
  | .stmt locks write next, f => .stmt locks write (fun e d ↦ bind (next e d) f)
  | .commit next, f => .commit (bind next f)

instance : Monad (Tx D Lock Supply) where
  pure := .pure
  bind := bind

/-- Issue one statement; a statement without result throws. -/
def query (s : Stmt D Lock Supply β) : Tx D Lock Supply β :=
  .stmt s.locks s.write (fun e d ↦ match s.result e d with
    | some b => .pure b
    | none => .throw)

/-- Run `body` in a transaction of its own and commit it before returning its result. -/
def transaction (body : Tx D Lock Supply α) : Tx D Lock Supply α := do
  let a ← body
  .commit (.pure a)

/-- A statement followed by `f` continues with `f` at its result. -/
theorem query_bind (s : Stmt D Lock Supply β) (f : β → Tx D Lock Supply α) :
    (query s >>= f) = .stmt s.locks s.write (fun e d ↦ match s.result e d with
      | some b => f b
      | none => .throw) := by
  change Tx.stmt _ _ _ = _
  congr 1
  funext e d
  dsimp only
  cases s.result e d <;> rfl

/-- Sequencing is associative. -/
theorem bind_assoc (p : Tx D Lock Supply α) (f : α → Tx D Lock Supply β)
    (g : β → Tx D Lock Supply γ) : (p >>= f) >>= g = p >>= fun a ↦ f a >>= g := by
  change bind (bind p f) g = bind p (fun a ↦ bind (f a) g)
  induction p with
  | pure a => rfl
  | throw => rfl
  | stmt locks write next ih =>
    simp only [bind, ih]
  | commit next ih => simp only [bind, ih]

/-- A transaction followed by `f` commits before it goes on. -/
theorem transaction_bind (p : Tx D Lock Supply α) (f : α → Tx D Lock Supply β) :
    (transaction p >>= f) = p >>= fun a ↦ .commit (f a) := by
  change (p >>= fun a ↦ .commit (.pure a)) >>= f = _
  rw [bind_assoc]
  rfl

end Tx

end Relational
