import Mathlib.Data.Finset.Card
import ConversationService.Library.ClusteredTable
import ConversationService.Library.Pools

/-!
# Transactions at READ COMMITTED

A table is used by concurrent transactions. Every statement reads a snapshot of the rows
that are committed when it begins, together with the rows of its own transaction. It
selects at most one row to write, waits while another transaction has written that row or
holds its key in the unique index, and then looks at the row as it is. What it has written
becomes visible to others when the transaction commits. Advisory locks are held until the
transaction ends.

This module gives a database of one table with its open transactions, turns a program of
statements into a program that runs in a transaction, and shows what the database keeps
whatever the programs are: row locks and advisory locks exclude each other, and the
unique index is unique among the committed rows and in the eyes of every transaction.
-/

namespace ConversationService
namespace ReadCommitted

open ClusteredTable Programs

/-- What a statement makes of the row that it has selected. -/
inductive Attempt (ρ : Type) where
  | leave
  | put (row : ρ)
  | remove
  /-- a check of the table refuses the new row -/
  | refuse

inductive Outcome (ρ : Type) where
  | nothing
  | put (row : ρ)
  | removed
  | violated

/-- A table with rows `ρ` under primary keys `κ`, and its statements. -/
structure Table (κ ρ L ι : Type) [LinearOrder κ] where
  statements : Signature
  /-- the key of a row in the unique index, which may be partial -/
  index : ρ -> Option ι
  /-- the advisory lock that a statement takes -/
  lock : statements.Op -> Option L
  /-- the row that a statement selects on its snapshot -/
  target : statements.Op -> Partition κ ρ -> Option κ
  /-- what it makes of that row, given the time and the row as it is -/
  attempt : statements.Op -> Nat -> Option ρ -> Attempt ρ
  answer : (o : statements.Op) -> Partition κ ρ -> Outcome ρ -> statements.Res o

/-- An open transaction; its writes are listed newest first, with `none` for a deletion. -/
structure Transaction (κ ρ L : Type) [LinearOrder κ] where
  snapshot : Partition κ ρ
  writes : List (κ × Option ρ)
  locks : List L

/-- The committed rows, and the open transactions by their numbers. -/
structure Database (κ ρ L : Type) [LinearOrder κ] where
  now : Nat
  rows : Partition κ ρ
  running : Partition Nat (Transaction κ ρ L)

variable {κ ρ L ι : Type} [LinearOrder κ]

/-- The rows after some writes. -/
def applyWrites : List (κ × Option ρ) -> Partition κ ρ -> Partition κ ρ
  | [], rows => rows
  | (k, some row) :: rest, rows => (applyWrites rest rows).upsert k (fun _ => row)
  | (k, none) :: rest, rows => (applyWrites rest rows).erase k

theorem get_applyWrites (writes : List (κ × Option ρ)) (rows : Partition κ ρ) (k : κ) :
    (applyWrites writes rows).get k = (writes.lookup k).getD (rows.get k) := by
  induction writes with
  | nil => rfl
  | cons write rest ih =>
      rcases write with ⟨k', row⟩
      rw [List.lookup_cons]
      cases row with
      | none =>
          show ((applyWrites rest rows).erase k').get k = _
          rw [Partition.get_erase, ih]
          by_cases h : k = k'
          · simp [h]
          · rw [if_neg h, beq_false_of_ne h]
      | some row =>
          show ((applyWrites rest rows).upsert k' (fun _ => row)).get k = _
          rw [Partition.get_upsert, ih]
          by_cases h : k = k'
          · simp [h]
          · rw [if_neg h, beq_false_of_ne h]

theorem get_applyWrites_of_notMem {writes : List (κ × Option ρ)} {rows : Partition κ ρ}
    {k : κ} (h : k ∉ writes.map Prod.fst) : (applyWrites writes rows).get k = rows.get k := by
  have hlookup : writes.lookup k = none := by
    rw [List.lookup_eq_none_iff]
    intro write hwrite
    simp only [bne_iff_ne, ne_eq]
    intro heq
    exact h (heq ▸ List.mem_map_of_mem hwrite)
  rw [get_applyWrites, hlookup]
  rfl

theorem get_applyWrites_cases {writes : List (κ × Option ρ)} {rows : Partition κ ρ} {k : κ}
    {row : ρ} (h : (applyWrites writes rows).get k = some row) :
    (k, some row) ∈ writes ∨ k ∉ writes.map Prod.fst ∧ rows.get k = some row := by
  by_cases hmem : k ∈ writes.map Prod.fst
  · left
    rw [get_applyWrites] at h
    cases hlookup : writes.lookup k with
    | none =>
        rcases List.mem_map.mp hmem with ⟨write, hwrite, hkey⟩
        have hne := List.lookup_eq_none_iff.mp hlookup write hwrite
        rw [hkey] at hne
        simp at hne
    | some v =>
        rw [hlookup] at h
        rw [show v = some row from h] at hlookup
        rcases List.lookup_eq_some_iff.mp hlookup with ⟨before, after, hsplit, _⟩
        rw [hsplit]
        simp
  · rw [get_applyWrites_of_notMem hmem] at h
    exact Or.inr ⟨hmem, h⟩

theorem applyWrites_cases (writes : List (κ × Option ρ)) (rows : Partition κ ρ) (k : κ) :
    (k, (applyWrites writes rows).get k) ∈ writes ∨
      (applyWrites writes rows).get k = rows.get k := by
  rw [get_applyWrites]
  cases hlookup : writes.lookup k with
  | none => exact Or.inr rfl
  | some row =>
      rcases List.lookup_eq_some_iff.mp hlookup with ⟨before, after, hsplit, _⟩
      left
      rw [hsplit]
      simp

namespace Transaction

def blank (snapshot : Partition κ ρ) : Transaction κ ρ L :=
  { snapshot := snapshot, writes := [], locks := [] }

/-- What a statement reads. -/
def seen (t : Transaction κ ρ L) : Partition κ ρ :=
  applyWrites t.writes t.snapshot

/-- The newest rows that the transaction may see: its own and the committed ones. -/
def current (t : Transaction κ ρ L) (rows : Partition κ ρ) : Partition κ ρ :=
  applyWrites t.writes rows

end Transaction

/-!
# Statements
-/

/-- How a program uses its session with the database. -/
inductive SessionOp (S : Signature) where
  | begin
  /-- the next statement takes its snapshot -/
  | take
  | run (o : S.Op)
  | commit
  | rollback

@[reducible] def SessionOp.Res {S : Signature} : SessionOp S -> Type
  | .run o => S.Res o
  | _ => Unit

/-- The operations of all sessions, each with the number of its transaction. -/
abbrev sessions (S : Signature) : Signature where
  Op := Nat × SessionOp S
  Res o := o.2.Res

namespace Table

variable [DecidableEq ι] (D : Table κ ρ L ι)

/-- The unique index holds the key of this row for another one. -/
def clashes (rows : Partition κ ρ) (k : κ) (row : ρ) : Bool :=
  (D.index row).isSome &&
    rows.rows.any (fun e => e.1 ≠ k && D.index e.2 == D.index row)

/-- What becomes of the selected row. -/
def result (current : Partition κ ρ) (k : κ) : Attempt ρ -> Outcome ρ
  | .leave => .nothing
  | .put row => if D.clashes current k row then .violated else .put row
  | .remove => .removed
  | .refuse => .violated

def outcome (now : Nat) (rows : Partition κ ρ) (t : Transaction κ ρ L)
    (o : D.statements.Op) : Outcome ρ :=
  match D.target o t.seen with
  | some k => D.result (t.current rows) k (D.attempt o now ((t.current rows).get k))
  | none => .nothing

end Table

/-- The rows that an outcome adds to the writes of its transaction. -/
def Outcome.writes (k : Option κ) : Outcome ρ -> List (κ × Option ρ)
  | .put row => k.toList.map (fun k => (k, some row))
  | .removed => k.toList.map (fun k => (k, none))
  | _ => []

namespace Database

def blank : Database κ ρ L := ⟨0, .empty, .empty⟩

/-- The open transaction with this number. -/
def transaction (db : Database κ ρ L) (x : Nat) : Transaction κ ρ L :=
  (db.running.get x).getD (.blank .empty)

def setTransaction (db : Database κ ρ L) (x : Nat) (t : Transaction κ ρ L) :
    Database κ ρ L :=
  { db with running := db.running.upsert x (fun _ => t) }

def rollback (db : Database κ ρ L) (x : Nat) : Database κ ρ L :=
  { db with running := db.running.erase x }

def commit (db : Database κ ρ L) (x : Nat) : Database κ ρ L :=
  { db with
    rows := (db.transaction x).current db.rows
    running := db.running.erase x }

end Database

namespace Table

variable [DecidableEq ι] (D : Table κ ρ L ι)

/-- The transaction after a statement. -/
def after (now : Nat) (rows : Partition κ ρ) (t : Transaction κ ρ L)
    (o : D.statements.Op) : Transaction κ ρ L :=
  { t with
    writes := (D.outcome now rows t o).writes (D.target o t.seen) ++ t.writes
    locks := (D.lock o).toList ++ t.locks }

def exec : (o : (sessions D.statements).Op) -> Database κ ρ L ->
    (sessions D.statements).Res o × Database κ ρ L
  | (x, .begin), db => ((), db.setTransaction x (.blank db.rows))
  | (x, .take), db =>
      ((), db.setTransaction x { db.transaction x with snapshot := db.rows })
  | (x, .run o), db =>
      (D.answer o (db.transaction x).seen (D.outcome db.now db.rows (db.transaction x) o),
        db.setTransaction x (D.after db.now db.rows (db.transaction x) o))
  | (x, .commit), db => ((), db.commit x)
  | (x, .rollback), db => ((), db.rollback x)

def machine : Machine (sessions D.statements) (Database κ ρ L) where
  exec := D.exec

/-!
# Waiting
-/

/-- No other open transaction holds this advisory lock. -/
def LockFree (db : Database κ ρ L) (x : Nat) (l : L) : Prop :=
  forall y t, db.running.get y = some t -> y ≠ x -> l ∉ t.locks

/-- No other open transaction has written this row. -/
def RowFree (db : Database κ ρ L) (x : Nat) (k : κ) : Prop :=
  forall y t, db.running.get y = some t -> y ≠ x -> k ∉ t.writes.map Prod.fst

/-- No other open transaction has written a row that has or had this key in the index. -/
def KeyFree (db : Database κ ρ L) (x : Nat) (i : ι) : Prop :=
  forall y t, db.running.get y = some t -> y ≠ x ->
    forall k row, (k, row) ∈ t.writes ->
      (forall r, row = some r -> D.index r ≠ some i) ∧
      (forall r, db.rows.get k = some r -> D.index r ≠ some i)

/-- A statement need not wait for another transaction. -/
structure Unblocked (db : Database κ ρ L) (x : Nat) (o : D.statements.Op) : Prop where
  lock : forall l, D.lock o = some l -> LockFree db x l
  row : forall k, D.target o (db.transaction x).seen = some k -> RowFree db x k
  key : forall k r i, D.target o (db.transaction x).seen = some k ->
    D.attempt o db.now (((db.transaction x).current db.rows).get k) = .put r ->
    D.index r = some i -> D.KeyFree db x i

/-- The server goes along with an operation of a session. -/
def Ready (db : Database κ ρ L) : Nat × SessionOp D.statements -> Prop
  | (x, .begin) => db.running.get x = none
  | (x, .run o) => (db.running.get x).isSome = true ∧ D.Unblocked db x o
  | (x, _) => (db.running.get x).isSome = true

/-- The transactions other than `x`. -/
def others (db : Database κ ρ L) (x : Nat) : List (Transaction κ ρ L) :=
  (db.running.rows.filter (fun e => e.1 ≠ x)).map Prod.snd

/-- A check of `Ready` on the transactions that are open. -/
def ready? [DecidableEq L] (db : Database κ ρ L) : Nat × SessionOp D.statements -> Bool
  | (x, .begin) => (db.running.get x).isNone
  | (x, .run o) =>
      (db.running.get x).isSome &&
      (D.lock o).all (fun l => (others db x).all (fun t => !t.locks.contains l)) &&
      (D.target o (db.transaction x).seen).all (fun k =>
        (others db x).all (fun t => !(t.writes.map Prod.fst).contains k) &&
        match D.attempt o db.now (((db.transaction x).current db.rows).get k) with
        | .put row => (D.index row).all (fun i => (others db x).all (fun t =>
            t.writes.all (fun write =>
              write.2.all (fun r => D.index r != some i) &&
                (db.rows.get write.1).all (fun r => D.index r != some i))))
        | _ => true)
  | (x, _) => (db.running.get x).isSome

theorem mem_others {db : Database κ ρ L} {x y : Nat} {t : Transaction κ ρ L}
    (ht : db.running.get y = some t) (hne : y ≠ x) : t ∈ others db x :=
  List.mem_map.mpr ⟨(y, t), List.mem_filter.mpr
    ⟨(Partition.get_eq_some_iff _ _ _).mp ht, decide_eq_true hne⟩, rfl⟩

theorem ready_of_check [DecidableEq L] {db : Database κ ρ L}
    {o : Nat × SessionOp D.statements} (h : D.ready? db o = true) : D.Ready db o := by
  rcases o with ⟨x, o⟩
  cases o with
  | begin => exact Option.isNone_iff_eq_none.mp h
  | take => exact h
  | commit => exact h
  | rollback => exact h
  | run o =>
      rcases Bool.and_eq_true_iff.mp h with ⟨hopen, htarget⟩
      rcases Bool.and_eq_true_iff.mp hopen with ⟨hopen, hlock⟩
      refine ⟨hopen, ?_, ?_, ?_⟩
      · intro l hl y t ht hne hin
        rw [hl] at hlock
        have hfree := List.all_eq_true.mp hlock t (mem_others ht hne)
        rw [List.contains_iff_mem.mpr hin] at hfree
        cases hfree
      · intro k hk y t ht hne hin
        rw [hk] at htarget
        have hfree := List.all_eq_true.mp (Bool.and_eq_true_iff.mp htarget).left t
          (mem_others ht hne)
        rw [List.contains_iff_mem.mpr hin] at hfree
        cases hfree
      · intro k row i hk hattempt hi y t ht hne k' row' hwrite
        rw [hk] at htarget
        have hkeys := (Bool.and_eq_true_iff.mp htarget).right
        rw [hattempt] at hkeys
        dsimp only at hkeys
        rw [hi] at hkeys
        have hfree := List.all_eq_true.mp (List.all_eq_true.mp hkeys t (mem_others ht hne))
          (k', row') hwrite
        rcases Bool.and_eq_true_iff.mp hfree with ⟨hnew, hold⟩
        refine ⟨?_, ?_⟩
        · intro r hr
          rw [hr] at hnew
          exact bne_iff_ne.mp hnew
        · intro r hr
          rw [hr] at hold
          exact bne_iff_ne.mp hold

end Table

/-- The clock advances, or the server rolls back a transaction. -/
def Database.Moves (db db' : Database κ ρ L) : Prop :=
  (exists x, db' = db.rollback x) ∨
    (db'.rows = db.rows ∧ db'.running = db.running ∧ db.now ≤ db'.now)

/-!
# Programs in a transaction

`transaction` runs a program as a request does: it commits after a result and rolls back
after an exception.
-/

section Transactions

variable {S : Signature} {ε α : Type}

/-- The statements of a program, and the end of its transaction. -/
def statements (e : ε) (x : Nat) : Prog S ε α -> Prog (sessions S) ε α
  | .ret a =>
      .op (x, .commit) (fun done =>
        match done with
        | some _ => .ret a
        | none => .op (x, .rollback) (fun _ => .raise e))
  | .raise e' => .op (x, .rollback) (fun _ => .raise e')
  | .op o next =>
      .op (x, .take) (fun taken =>
        match taken with
        | some _ => .op (x, .run o) (fun answer => statements e x (next answer))
        | none => statements e x (next none))

def transaction (e : ε) (x : Nat) (p : Prog S ε α) : Prog (sessions S) ε α :=
  .op (x, .begin) (fun begun =>
    match begun with
    | some _ => statements e x p
    | none => .raise e)

/-- The program has returned, or returns only by an answer to a commit. -/
def CommitsFirst : Prog (sessions S) ε α -> Prop
  | .ret _ => True
  | .raise _ => True
  | .op o next =>
      (forall answer a, next answer = .ret a -> o.2 = .commit) ∧
        forall answer, CommitsFirst (next answer)

theorem statements_ne_ret (e : ε) (x : Nat) (p : Prog S ε α) (a : α) :
    statements e x p ≠ .ret a := by
  intro h
  cases p with
  | ret b => cases h
  | raise e' => cases h
  | op o next =>
      rw [statements] at h
      cases h

theorem commitsFirst_statements (e : ε) (x : Nat) (p : Prog S ε α) :
    CommitsFirst (statements e x p) := by
  induction p with
  | ret a =>
      refine ⟨fun _ _ _ => rfl, ?_⟩
      rintro (_ | done)
      · refine ⟨?_, fun _ => trivial⟩
        intro _ _ h
        cases h
      · trivial
  | raise e' =>
      refine ⟨?_, fun _ => trivial⟩
      intro _ _ h
      cases h
  | op o next ih =>
      rw [statements]
      refine ⟨?_, ?_⟩
      · rintro (_ | taken) a h
        · exact absurd h (statements_ne_ret e x _ a)
        · cases h
      · rintro (_ | taken)
        · exact ih none
        · exact ⟨fun _ a h => absurd h (statements_ne_ret e x _ a), ih⟩

theorem commitsFirst_transaction (e : ε) (x : Nat) (p : Prog S ε α) :
    CommitsFirst (transaction e x p) := by
  refine ⟨?_, ?_⟩
  · rintro (_ | begun) a h
    · cases h
    · exact absurd h (statements_ne_ret e x p a)
  · rintro (_ | begun)
    · trivial
    · exact commitsFirst_statements e x p

theorem allOps_statements {P : S.Op -> Prop} {Q : (sessions S).Op -> Prop} {x : Nat}
    (hrun : forall o, P o -> Q (x, .run o))
    (hother : forall o, (forall s, o ≠ .run s) -> Q (x, o)) (e : ε) {p : Prog S ε α}
    (hp : Prog.AllOps P p) : Prog.AllOps Q (statements e x p) := by
  have htake := hother .take (by simp)
  have hcommit := hother .commit (by simp)
  have hrollback := hother .rollback (by simp)
  induction p with
  | ret a =>
      refine ⟨hcommit, ?_⟩
      rintro (_ | done)
      · exact ⟨hrollback, fun _ => trivial⟩
      · trivial
  | raise e' => exact ⟨hrollback, fun _ => trivial⟩
  | op o next ih =>
      rw [statements]
      refine ⟨htake, ?_⟩
      rintro (_ | taken)
      · exact ih none (hp.right none)
      · exact ⟨hrun o hp.left, fun answer => ih answer (hp.right answer)⟩

theorem allOps_transaction {P : S.Op -> Prop} {Q : (sessions S).Op -> Prop} {x : Nat}
    (hrun : forall o, P o -> Q (x, .run o))
    (hother : forall o, (forall s, o ≠ .run s) -> Q (x, o)) (e : ε) {p : Prog S ε α}
    (hp : Prog.AllOps P p) : Prog.AllOps Q (transaction e x p) := by
  refine ⟨hother .begin (by simp), ?_⟩
  rintro (_ | begun)
  · trivial
  · exact allOps_statements hrun hother e hp

end Transactions

/-!
# What the database keeps
-/

section Consistency

variable {D : Table κ ρ L ι} {db db' : Database κ ρ L}

namespace Database

theorem transaction_of_get {x : Nat} {t : Transaction κ ρ L} (h : db.running.get x = some t) :
    db.transaction x = t := by
  unfold transaction
  rw [h]
  rfl

theorem get_setTransaction (x y : Nat) (t : Transaction κ ρ L) :
    (db.setTransaction x t).running.get y = if y = x then some t else db.running.get y :=
  Partition.get_upsert _ _ _ _

theorem get_rollback (x y : Nat) :
    (db.rollback x).running.get y = if y = x then none else db.running.get y :=
  Partition.get_erase _ _ _

theorem get_commit (x y : Nat) :
    (db.commit x).running.get y = if y = x then none else db.running.get y :=
  Partition.get_erase _ _ _

theorem isSome_commit {x : Nat} {k : κ} (hspared : (k, none) ∉ (db.transaction x).writes)
    (hsome : (db.rows.get k).isSome = true) : ((db.commit x).rows.get k).isSome = true := by
  show ((applyWrites (db.transaction x).writes db.rows).get k).isSome = true
  rcases applyWrites_cases (db.transaction x).writes db.rows k with hwrite | hold
  · cases hrow : (applyWrites (db.transaction x).writes db.rows).get k with
    | some row => rfl
    | none =>
        rw [hrow] at hwrite
        exact absurd hwrite hspared
  · rw [hold]
    exact hsome

end Database

namespace Table

/-- The unique index. -/
def Unique (D : Table κ ρ L ι) (rows : Partition κ ρ) : Prop :=
  forall k k' row row' i, rows.get k = some row -> rows.get k' = some row' ->
    D.index row = some i -> D.index row' = some i -> k = k'

/-- Neither transaction holds what the other one does. -/
structure Apart (D : Table κ ρ L ι) (t u : Transaction κ ρ L) : Prop where
  locks : forall l, l ∈ t.locks -> l ∉ u.locks
  rows : forall k, k ∈ t.writes.map Prod.fst -> k ∉ u.writes.map Prod.fst
  keys : forall k row k' row' i, (k, some row) ∈ t.writes -> (k', some row') ∈ u.writes ->
    D.index row = some i -> D.index row' ≠ some i

structure Consistent (D : Table κ ρ L ι) (db : Database κ ρ L) : Prop where
  unique : D.Unique db.rows
  views : forall x t, db.running.get x = some t -> D.Unique (t.current db.rows)
  apart : forall x y t u, db.running.get x = some t -> db.running.get y = some u -> x ≠ y ->
    D.Apart t u

theorem Apart.symm {t u : Transaction κ ρ L} (h : D.Apart t u) : D.Apart u t where
  locks l hu ht := h.locks l ht hu
  rows k hu ht := h.rows k ht hu
  keys k row k' row' i hu ht hrow hrow' := h.keys k' row' k row i ht hu hrow' hrow

theorem unique_erase {rows : Partition κ ρ} (h : D.Unique rows) (k : κ) :
    D.Unique (rows.erase k) := by
  have hget : forall k' row, (rows.erase k).get k' = some row -> rows.get k' = some row := by
    intro k' row hrow
    rw [Partition.get_erase] at hrow
    split at hrow
    · cases hrow
    · exact hrow
  intro k1 k2 row1 row2 i h1 h2
  exact h k1 k2 row1 row2 i (hget k1 row1 h1) (hget k2 row2 h2)

theorem consistent_setTransaction (h : D.Consistent db) {x : Nat} {t : Transaction κ ρ L}
    (hview : D.Unique (t.current db.rows))
    (hapart : forall y u, db.running.get y = some u -> y ≠ x -> D.Apart t u) :
    D.Consistent (db.setTransaction x t) where
  unique := h.unique
  views := by
    intro y u hget
    rw [Database.get_setTransaction] at hget
    split at hget
    · cases hget
      exact hview
    · exact h.views y u hget
  apart := by
    intro y z u v hu hv hne
    rw [Database.get_setTransaction] at hu hv
    by_cases hy : y = x
    · rw [if_pos hy] at hu
      rw [if_neg (fun hz => hne (hy.trans hz.symm))] at hv
      cases hu
      exact hapart z v hv (fun hz => hne (hy.trans hz.symm))
    · rw [if_neg hy] at hu
      by_cases hz : z = x
      · rw [if_pos hz] at hv
        cases hv
        exact (hapart y u hu hy).symm
      · rw [if_neg hz] at hv
        exact h.apart y z u v hu hv hne

theorem consistent_rollback (h : D.Consistent db) (x : Nat) : D.Consistent (db.rollback x) := by
  have hget : forall y u, (db.rollback x).running.get y = some u ->
      db.running.get y = some u := by
    intro y u hu
    rw [Database.get_rollback] at hu
    split at hu
    · cases hu
    · exact hu
  refine ⟨h.unique, fun y u hu => h.views y u (hget y u hu), ?_⟩
  intro y z u v hu hv
  exact h.apart y z u v (hget y u hu) (hget z v hv)

theorem consistent_commit (h : D.Consistent db) {x : Nat} {t : Transaction κ ρ L}
    (ht : db.running.get x = some t) : D.Consistent (db.commit x) := by
  have hrows : (db.commit x).rows = t.current db.rows := by
    show (db.transaction x).current db.rows = _
    rw [Database.transaction_of_get ht]
  have hget : forall y u, (db.commit x).running.get y = some u ->
      y ≠ x ∧ db.running.get y = some u := by
    intro y u hu
    rw [Database.get_commit] at hu
    split at hu
    · cases hu
    · rename_i hne
      exact ⟨hne, hu⟩
  refine ⟨?_, ?_, ?_⟩
  · rw [hrows]
    exact h.views x t ht
  · intro y u hu
    rcases hget y u hu with ⟨hne, hu⟩
    have hapart := h.apart x y t u ht hu (Ne.symm hne)
    rw [hrows]
    -- a row of the new view that `u` has not written is one of `t`, or an old one
    have hcross : forall k1 k2 row1 row2 i, (k1, some row1) ∈ u.writes ->
        k2 ∉ u.writes.map Prod.fst -> (t.current db.rows).get k2 = some row2 ->
        (u.current db.rows).get k1 = some row1 ->
        D.index row1 = some i -> D.index row2 = some i -> k1 = k2 := by
      intro k1 k2 row1 row2 i hin hout hget2 hget1 hrow1 hrow2
      rcases get_applyWrites_cases hget2 with hwritten | ⟨_, hold⟩
      · exact absurd hrow1 (hapart.keys k2 row2 k1 row1 i hwritten hin hrow2)
      · refine h.views y u hu k1 k2 row1 row2 i hget1 ?_ hrow1 hrow2
        show (applyWrites u.writes db.rows).get k2 = _
        rw [get_applyWrites_of_notMem hout]
        exact hold
    -- what `u` has written looks the same over any rows
    have hown : forall k row, (u.current (t.current db.rows)).get k = some row ->
        k ∈ u.writes.map Prod.fst -> (u.current db.rows).get k = some row ∧
          (k, some row) ∈ u.writes := by
      intro k row hget hin
      rcases get_applyWrites_cases hget with hwritten | ⟨hout, _⟩
      · refine ⟨?_, hwritten⟩
        cases hlookup : u.writes.lookup k with
        | none =>
            have hnone := List.lookup_eq_none_iff.mp hlookup _ hwritten
            simp at hnone
        | some v =>
            have hget' : (applyWrites u.writes (t.current db.rows)).get k = some row := hget
            show (applyWrites u.writes db.rows).get k = some row
            rw [get_applyWrites, hlookup] at hget' ⊢
            exact hget'
      · exact absurd hin hout
    intro k1 k2 row1 row2 i hget1 hget2 hrow1 hrow2
    by_cases h1 : k1 ∈ u.writes.map Prod.fst
    · have hown1 := hown k1 row1 hget1 h1
      by_cases h2 : k2 ∈ u.writes.map Prod.fst
      · exact h.views y u hu k1 k2 row1 row2 i hown1.left (hown k2 row2 hget2 h2).left hrow1
          hrow2
      · have hold : (t.current db.rows).get k2 = some row2 := by
          rw [<- get_applyWrites_of_notMem h2]
          exact hget2
        exact hcross k1 k2 row1 row2 i hown1.right h2 hold hown1.left hrow1 hrow2
    · have hold1 : (t.current db.rows).get k1 = some row1 := by
        rw [<- get_applyWrites_of_notMem h1]
        exact hget1
      by_cases h2 : k2 ∈ u.writes.map Prod.fst
      · have hown2 := hown k2 row2 hget2 h2
        exact (hcross k2 k1 row2 row1 i hown2.right h1 hold1 hown2.left hrow2 hrow1).symm
      · have hold2 : (t.current db.rows).get k2 = some row2 := by
          rw [<- get_applyWrites_of_notMem h2]
          exact hget2
        exact h.views x t ht k1 k2 row1 row2 i hold1 hold2 hrow1 hrow2
  · intro y z u v hu hv
    exact h.apart y z u v (hget y u hu).right (hget z v hv).right

theorem exists_of_isSome {x : Nat} (h : (db.running.get x).isSome = true) :
    exists t, db.running.get x = some t :=
  Option.isSome_iff_exists.mp h

theorem consistent_moves (h : D.Consistent db) (hmove : db.Moves db') : D.Consistent db' := by
  rcases hmove with ⟨x, rfl⟩ | ⟨hrows, hrunning, _⟩
  · exact consistent_rollback h x
  · refine ⟨?_, ?_, ?_⟩
    · rw [hrows]
      exact h.unique
    · rw [hrows, hrunning]
      exact h.views
    · rw [hrunning]
      exact h.apart

theorem consistent_blank : D.Consistent .blank where
  unique := by
    intro k k' row row' i hget
    cases hget
  views := by
    intro x t hget
    cases hget
  apart := by
    intro x y t u hget
    cases hget

variable [DecidableEq ι]

theorem rows_exec (o : (sessions D.statements).Op) :
    (D.exec o db).2.rows = db.rows ∨
      exists x, o = (x, .commit) ∧ (D.exec o db).2.rows = (db.transaction x).current db.rows := by
  rcases o with ⟨x, o⟩
  cases o with
  | commit => exact Or.inr ⟨x, rfl, rfl⟩
  | _ => exact Or.inl rfl

theorem running_exec_ne {o : (sessions D.statements).Op} {y : Nat} (h : y ≠ o.1) :
    (D.exec o db).2.running.get y = db.running.get y := by
  rcases o with ⟨x, o⟩
  cases o with
  | commit =>
      show (db.commit x).running.get y = _
      rw [Database.get_commit, if_neg h]
  | rollback =>
      show (db.rollback x).running.get y = _
      rw [Database.get_rollback, if_neg h]
  | _ =>
      show (db.setTransaction x _).running.get y = _
      rw [Database.get_setTransaction, if_neg h]

/-- How a statement may come out. -/
inductive Outcomes (D : Table κ ρ L ι) (now : Nat) (rows : Partition κ ρ)
    (t : Transaction κ ρ L) (o : D.statements.Op) : Outcome ρ -> Prop where
  | missed : D.target o t.seen = none -> Outcomes D now rows t o .nothing
  | left (k : κ) : D.target o t.seen = some k ->
      D.attempt o now ((t.current rows).get k) = .leave -> Outcomes D now rows t o .nothing
  | violated (k : κ) : D.target o t.seen = some k ->
      (D.attempt o now ((t.current rows).get k) = .refuse ∨
        exists row, D.attempt o now ((t.current rows).get k) = .put row ∧
          D.clashes (t.current rows) k row = true) ->
      Outcomes D now rows t o .violated
  | put (k : κ) (row : ρ) : D.target o t.seen = some k ->
      D.attempt o now ((t.current rows).get k) = .put row ->
      D.clashes (t.current rows) k row = false -> Outcomes D now rows t o (.put row)
  | removed (k : κ) : D.target o t.seen = some k ->
      D.attempt o now ((t.current rows).get k) = .remove -> Outcomes D now rows t o .removed

theorem outcomes (now : Nat) (rows : Partition κ ρ) (t : Transaction κ ρ L)
    (o : D.statements.Op) : Outcomes D now rows t o (D.outcome now rows t o) := by
  unfold Table.outcome
  cases htarget : D.target o t.seen with
  | none => exact Outcomes.missed htarget
  | some k =>
      dsimp only
      cases hattempt : D.attempt o now ((t.current rows).get k) with
      | leave => exact Outcomes.left k htarget hattempt
      | refuse => exact Outcomes.violated k htarget (Or.inl hattempt)
      | remove => exact Outcomes.removed k htarget hattempt
      | put row =>
          cases hclash : D.clashes (t.current rows) k row with
          | true =>
              simp only [Table.result, hclash]
              exact Outcomes.violated k htarget (Or.inr ⟨row, hattempt, hclash⟩)
          | false =>
              simp only [Table.result, hclash]
              exact Outcomes.put k row htarget hattempt hclash

theorem writes_cases (now : Nat) (rows : Partition κ ρ) (t : Transaction κ ρ L)
    (o : D.statements.Op) :
    (D.outcome now rows t o).writes (D.target o t.seen) = [] ∨
    (exists k row, D.target o t.seen = some k ∧
      D.attempt o now ((t.current rows).get k) = .put row ∧
      D.clashes (t.current rows) k row = false ∧
      (D.outcome now rows t o).writes (D.target o t.seen) = [(k, some row)]) ∨
    exists k, D.target o t.seen = some k ∧
      D.attempt o now ((t.current rows).get k) = .remove ∧
      (D.outcome now rows t o).writes (D.target o t.seen) = [(k, none)] := by
  have houtcome := outcomes (D := D) now rows t o
  generalize D.outcome now rows t o = outcome at houtcome
  cases houtcome with
  | missed htarget => exact Or.inl rfl
  | left k htarget hattempt => exact Or.inl rfl
  | violated k htarget hviolated => exact Or.inl rfl
  | put k row htarget hattempt hclash =>
      refine Or.inr (Or.inl ⟨k, row, htarget, hattempt, hclash, ?_⟩)
      rw [htarget]
      rfl
  | removed k htarget hattempt =>
      refine Or.inr (Or.inr ⟨k, htarget, hattempt, ?_⟩)
      rw [htarget]
      rfl

theorem clashes_iff {rows : Partition κ ρ} {k : κ} {row : ρ} :
    D.clashes rows k row = true <-> exists i k' row', D.index row = some i ∧ k' ≠ k ∧
      rows.get k' = some row' ∧ D.index row' = some i := by
  unfold Table.clashes
  rw [Bool.and_eq_true, Option.isSome_iff_exists, List.any_eq_true]
  constructor
  · rintro ⟨⟨i, hi⟩, ⟨k', row'⟩, hmem, hclash⟩
    rcases Bool.and_eq_true_iff.mp hclash with ⟨hne, hindex⟩
    refine ⟨i, k', row', hi, of_decide_eq_true hne, (rows.get_eq_some_iff k' row').mpr hmem, ?_⟩
    rw [beq_iff_eq.mp hindex]
    exact hi
  · rintro ⟨i, k', row', hi, hne, hrow, hindex⟩
    refine ⟨⟨i, hi⟩, (k', row'), (rows.get_eq_some_iff k' row').mp hrow, ?_⟩
    exact Bool.and_eq_true_iff.mpr ⟨decide_eq_true hne, beq_iff_eq.mpr (hindex.trans hi.symm)⟩

theorem unique_of_not_clashes {rows : Partition κ ρ} {k : κ} {row : ρ} (h : D.Unique rows)
    (hclash : D.clashes rows k row = false) : D.Unique (rows.upsert k (fun _ => row)) := by
  have hother : forall k' row' i, k' ≠ k -> rows.get k' = some row' ->
      D.index row' = some i -> D.index row ≠ some i := by
    intro k' row' i hne hget hrow' hrow
    have hany : rows.rows.any (fun e => e.1 ≠ k && D.index e.2 == D.index row) = true := by
      rw [List.any_eq_true]
      refine ⟨(k', row'), (Partition.get_eq_some_iff _ _ _).mp hget, ?_⟩
      simp [hne, hrow, hrow']
    unfold clashes at hclash
    rw [hany, hrow] at hclash
    cases hclash
  intro k1 k2 row1 row2 i hget1 hget2 hrow1 hrow2
  rw [Partition.get_upsert] at hget1 hget2
  by_cases h1 : k1 = k
  · by_cases h2 : k2 = k
    · rw [h1, h2]
    · rw [if_pos h1] at hget1
      rw [if_neg h2] at hget2
      cases hget1
      exact absurd hrow1 (hother k2 row2 i h2 hget2 hrow2)
  · rw [if_neg h1] at hget1
    by_cases h2 : k2 = k
    · rw [if_pos h2] at hget2
      cases hget2
      exact absurd hrow2 (hother k1 row1 i h1 hget1 hrow1)
    · rw [if_neg h2] at hget2
      exact h k1 k2 row1 row2 i hget1 hget2 hrow1 hrow2

theorem consistent_run (h : D.Consistent db) {x : Nat} {t : Transaction κ ρ L}
    (ht : db.running.get x = some t) {o : D.statements.Op} (hfree : D.Unblocked db x o) :
    D.Consistent (db.setTransaction x (D.after db.now db.rows t o)) := by
  have htransaction := Database.transaction_of_get ht
  refine consistent_setTransaction h ?_ ?_
  · show D.Unique (applyWrites ((D.outcome db.now db.rows t o).writes (D.target o t.seen) ++
      t.writes) db.rows)
    rcases writes_cases db.now db.rows t o with hnone | ⟨k, row, _, _, hclash, hput⟩ |
      ⟨k, _, _, hremove⟩
    · rw [hnone]
      exact h.views x t ht
    · rw [hput]
      exact unique_of_not_clashes (h.views x t ht) hclash
    · rw [hremove]
      exact unique_erase (h.views x t ht) k
  · intro y u hu hne
    have hold := h.apart x y t u ht hu (Ne.symm hne)
    refine ⟨?_, ?_, ?_⟩
    · intro l hl
      rcases List.mem_append.mp hl with hnew | hl
      · exact hfree.lock l (Option.mem_toList.mp hnew) y u hu hne
      · exact hold.locks l hl
    · intro k hk
      rcases List.mem_map.mp hk with ⟨write, hwrite, rfl⟩
      rcases List.mem_append.mp hwrite with hnew | hwrite
      · have htarget : D.target o t.seen = some write.1 := by
          rcases writes_cases db.now db.rows t o with hnone | ⟨k, row, htarget, _, _, hput⟩ |
            ⟨k, htarget, _, hremove⟩
          · rw [hnone] at hnew
            cases hnew
          · rw [hput] at hnew
            rw [List.mem_singleton.mp hnew]
            exact htarget
          · rw [hremove] at hnew
            rw [List.mem_singleton.mp hnew]
            exact htarget
        exact hfree.row _ (htransaction.symm ▸ htarget) y u hu hne
      · exact hold.rows _ (List.mem_map_of_mem hwrite)
    · intro k row k' row' i hwrite hwrite' hrow
      rcases List.mem_append.mp hwrite with hnew | hwrite
      · rcases writes_cases db.now db.rows t o with hnone |
          ⟨k1, row1, htarget, hattempt, _, hput⟩ | ⟨k1, _, _, hremove⟩
        · rw [hnone] at hnew
          cases hnew
        · rw [hput] at hnew
          cases List.mem_singleton.mp hnew
          have hkey := hfree.key k row i (htransaction.symm ▸ htarget)
            (htransaction.symm ▸ hattempt) hrow
          exact (hkey y u hu hne k' (some row') hwrite').left row' rfl
        · rw [hremove] at hnew
          cases List.mem_singleton.mp hnew
      · exact hold.keys k row k' row' i hwrite hwrite' hrow

theorem consistent_exec (h : D.Consistent db) {o : (sessions D.statements).Op}
    (hready : D.Ready db o) : D.Consistent (D.exec o db).2 := by
  rcases o with ⟨x, o⟩
  cases o with
  | begin =>
      refine consistent_setTransaction h h.unique ?_
      intro y u _ _
      exact ⟨by simp [Transaction.blank], by simp [Transaction.blank],
        by simp [Transaction.blank]⟩
  | take =>
      rcases exists_of_isSome hready with ⟨t, ht⟩
      show D.Consistent (db.setTransaction x { db.transaction x with snapshot := db.rows })
      rw [Database.transaction_of_get ht]
      refine consistent_setTransaction h (h.views x t ht) ?_
      intro y u hu hne
      have hold := h.apart x y t u ht hu (Ne.symm hne)
      exact ⟨hold.locks, hold.rows, hold.keys⟩
  | run o =>
      rcases exists_of_isSome hready.left with ⟨t, ht⟩
      show D.Consistent (db.setTransaction x (D.after db.now db.rows (db.transaction x) o))
      rw [Database.transaction_of_get ht]
      exact consistent_run h ht hready.right
  | commit =>
      rcases exists_of_isSome hready with ⟨t, ht⟩
      exact consistent_commit h ht
  | rollback => exact consistent_rollback h x

end Table

end Consistency

/-!
# Rows under way

The rows of a kind that are committed, together with those that an open transaction may
still commit, are what a limit on the committed rows has to count.
-/

section Possible

/-- The keys of the rows of a kind among some writes. -/
def putKeys {κ ρ : Type} (p : κ -> ρ -> Bool) : List (κ × Option ρ) -> List κ
  | [] => []
  | (k, some row) :: rest => if p k row then k :: putKeys p rest else putKeys p rest
  | (_, none) :: rest => putKeys p rest

theorem mem_putKeys {κ ρ : Type} {p : κ -> ρ -> Bool} {writes : List (κ × Option ρ)}
    {k : κ} :
    k ∈ putKeys p writes <-> exists row, (k, some row) ∈ writes ∧ p k row = true := by
  induction writes with
  | nil => simp [putKeys]
  | cons write rest ih =>
      rcases write with ⟨k', row⟩
      cases row with
      | none => simp [putKeys, ih]
      | some row =>
          unfold putKeys
          split
          · rename_i hp
            rw [List.mem_cons, ih]
            constructor
            · rintro (rfl | ⟨row', hin, hp'⟩)
              · exact ⟨row, by simp, hp⟩
              · exact ⟨row', List.mem_cons_of_mem _ hin, hp'⟩
            · rintro ⟨row', hin, hp'⟩
              rcases List.mem_cons.mp hin with heq | hin
              · cases heq
                exact Or.inl rfl
              · exact Or.inr ⟨row', hin, hp'⟩
          · rename_i hp
            rw [ih]
            constructor
            · rintro ⟨row', hin, hp'⟩
              exact ⟨row', List.mem_cons_of_mem _ hin, hp'⟩
            · rintro ⟨row', hin, hp'⟩
              rcases List.mem_cons.mp hin with heq | hin
              · cases heq
                exact absurd hp' hp
              · exact ⟨row', hin, hp'⟩

namespace Database

/-- The committed rows of a kind. -/
def committed (p : κ -> ρ -> Bool) (rows : Partition κ ρ) : List (κ × ρ) :=
  rows.rows.filter (fun e => p e.1 e.2)

/-- The keys of the rows of a kind that are committed or may still be. -/
def possible (p : κ -> ρ -> Bool) (db : Database κ ρ L) : Finset κ :=
  ((committed p db.rows).map Prod.fst ++
    db.running.rows.flatMap (fun e => putKeys p e.2.writes)).toFinset

variable {p : κ -> ρ -> Bool} {db db' : Database κ ρ L}

theorem mem_committed {rows : Partition κ ρ} {k : κ} {row : ρ} :
    (k, row) ∈ committed p rows <-> rows.get k = some row ∧ p k row = true := by
  unfold committed
  rw [List.mem_filter, Partition.get_eq_some_iff]

theorem mem_possible {k : κ} :
    k ∈ db.possible p <-> (exists row, db.rows.get k = some row ∧ p k row = true) ∨
      exists x t row, db.running.get x = some t ∧ (k, some row) ∈ t.writes ∧
        p k row = true := by
  unfold possible
  rw [List.mem_toFinset, List.mem_append, List.mem_map, List.mem_flatMap]
  constructor
  · rintro (⟨⟨k', row⟩, hin, rfl⟩ | ⟨⟨x, t⟩, hin, hk⟩)
    · exact Or.inl ⟨row, mem_committed.mp hin⟩
    · rcases mem_putKeys.mp hk with ⟨row, hwrite, hp⟩
      exact Or.inr ⟨x, t, row, (Partition.get_eq_some_iff _ _ _).mpr hin, hwrite, hp⟩
  · rintro (⟨row, hrow⟩ | ⟨x, t, row, hget, hwrite, hp⟩)
    · exact Or.inl ⟨(k, row), mem_committed.mpr hrow, rfl⟩
    · exact Or.inr ⟨(x, t), (Partition.get_eq_some_iff _ _ _).mp hget,
        mem_putKeys.mpr ⟨row, hwrite, hp⟩⟩

theorem card_keys (rows : Partition κ ρ) :
    ((committed p rows).map Prod.fst).toFinset.card = (committed p rows).length := by
  have hnodup : ((committed p rows).map Prod.fst).Nodup := by
    refine List.Nodup.map_on ?_ (rows.nodup_rows.filter _)
    rintro ⟨k, row⟩ hrow ⟨k', row'⟩ hrow' heq
    dsimp only at heq
    subst heq
    have hget := (mem_committed.mp hrow).left
    rw [(mem_committed.mp hrow').left] at hget
    cases hget
    rfl
  rw [List.toFinset_card_of_nodup hnodup, List.length_map]

theorem committed_le_possible (p : κ -> ρ -> Bool) (db : Database κ ρ L) :
    (committed p db.rows).length ≤ (db.possible p).card := by
  rw [<- card_keys]
  refine Finset.card_le_card ?_
  intro k hk
  unfold possible
  rw [List.mem_toFinset] at hk ⊢
  exact List.mem_append_left _ hk

theorem committed_le {q : κ -> ρ -> Bool} {rows rows' : Partition κ ρ}
    (h : forall k row, rows.get k = some row -> p k row = true ->
      exists row', rows'.get k = some row' ∧ q k row' = true) :
    (committed p rows).length ≤ (committed q rows').length := by
  rw [<- card_keys, <- card_keys]
  refine Finset.card_le_card ?_
  intro k hk
  rw [List.mem_toFinset, List.mem_map] at hk ⊢
  rcases hk with ⟨⟨k, row⟩, hrow, rfl⟩
  rcases mem_committed.mp hrow with ⟨hget, hp⟩
  rcases h k row hget hp with ⟨row', hget', hq⟩
  exact ⟨(k, row'), mem_committed.mpr ⟨hget', hq⟩, rfl⟩

theorem possible_le_committed (h : forall k, k ∈ db.possible p ->
    exists row, db.rows.get k = some row ∧ p k row = true) :
    (db.possible p).card ≤ (committed p db.rows).length := by
  rw [<- card_keys]
  refine Finset.card_le_card ?_
  intro k hk
  rw [List.mem_toFinset, List.mem_map]
  rcases h k hk with ⟨row, hrow⟩
  exact ⟨(k, row), mem_committed.mpr hrow, rfl⟩

theorem possible_moves (hmove : db.Moves db') : db'.possible p ⊆ db.possible p := by
  intro k hk
  rw [mem_possible] at hk ⊢
  rcases hmove with ⟨x, rfl⟩ | ⟨hrows, hrunning, _⟩
  · rcases hk with hrow | ⟨y, t, row, hget, hwrite⟩
    · exact Or.inl hrow
    · rw [get_rollback] at hget
      split at hget
      · cases hget
      · exact Or.inr ⟨y, t, row, hget, hwrite⟩
  · rw [hrows, hrunning] at hk
    exact hk

theorem possible_setTransaction {x : Nat} {t : Transaction κ ρ L} {k : κ}
    (hk : k ∈ (db.setTransaction x t).possible p) :
    k ∈ db.possible p ∨ exists row, (k, some row) ∈ t.writes ∧ p k row = true := by
  rw [mem_possible] at hk ⊢
  rcases hk with hrow | ⟨y, u, row, hget, hwrite, hp⟩
  · exact Or.inl (Or.inl hrow)
  · rw [get_setTransaction] at hget
    split at hget
    · cases hget
      exact Or.inr ⟨row, hwrite, hp⟩
    · exact Or.inl (Or.inr ⟨y, u, row, hget, hwrite, hp⟩)

theorem possible_of_written {x : Nat} {k : κ} {row : ρ}
    (hwrite : (k, some row) ∈ (db.transaction x).writes) (hp : p k row = true) :
    k ∈ db.possible p := by
  rw [mem_possible]
  unfold transaction at hwrite
  cases hget : db.running.get x with
  | none =>
      rw [hget] at hwrite
      cases hwrite
  | some t =>
      rw [hget] at hwrite
      exact Or.inr ⟨x, t, row, hget, hwrite, hp⟩

end Database

/-- Only a statement that puts a row of the kind adds to the possible rows. -/
theorem possible_exec [DecidableEq ι] {D : Table κ ρ L ι} (p : κ -> ρ -> Bool)
    (db : Database κ ρ L) (o : (sessions D.statements).Op) :
    (D.exec o db).2.possible p ⊆ db.possible p ∨
      exists x s k row, o = (x, .run s) ∧
        D.target s (db.transaction x).seen = some k ∧
        D.attempt s db.now (((db.transaction x).current db.rows).get k) = .put row ∧
        p k row = true ∧
        forall k', k' ∈ (D.exec o db).2.possible p -> k' = k ∨ k' ∈ db.possible p := by
  rcases o with ⟨x, o⟩
  cases o with
  | begin =>
      left
      intro k hk
      rcases Database.possible_setTransaction hk with hk | ⟨row, hwrite, _⟩
      · exact hk
      · cases hwrite
  | take =>
      left
      intro k hk
      rcases Database.possible_setTransaction hk with hk | ⟨row, hwrite, hp⟩
      · exact hk
      · exact Database.possible_of_written hwrite hp
  | rollback =>
      left
      exact Database.possible_moves (Or.inl ⟨x, rfl⟩)
  | commit =>
      left
      intro k hk
      rcases Database.mem_possible.mp hk with ⟨row, hget, hp⟩ | ⟨y, t, row, hget, hwrite, hp⟩
      · rcases get_applyWrites_cases hget with hwrite | ⟨_, hold⟩
        · exact Database.possible_of_written hwrite hp
        · exact Database.mem_possible.mpr (Or.inl ⟨row, hold, hp⟩)
      · have hget' : (db.commit x).running.get y = some t := hget
        rw [Database.get_commit] at hget'
        split at hget'
        · cases hget'
        · exact Database.mem_possible.mpr (Or.inr ⟨y, t, row, hget', hwrite, hp⟩)
  | run s =>
      have hold : forall k row, (k, some row) ∈ (db.transaction x).writes -> p k row = true ->
          k ∈ db.possible p := fun k row hwrite hp => Database.possible_of_written hwrite hp
      rcases Table.writes_cases (D := D) db.now db.rows (db.transaction x) s with hnone |
        ⟨k, row, htarget, hattempt, _, hput⟩ | ⟨k, _, _, hremove⟩
      · left
        intro k hk
        rcases Database.possible_setTransaction hk with hk | ⟨row, hwrite, hp⟩
        · exact hk
        · have hwrite' : (k, some row) ∈ (D.outcome db.now db.rows (db.transaction x) s).writes
              (D.target s (db.transaction x).seen) ++ (db.transaction x).writes := hwrite
          rw [hnone] at hwrite'
          exact hold k row hwrite' hp
      · have hin : forall k' row', (k', some row') ∈
            (D.after db.now db.rows (db.transaction x) s).writes ->
            (k' = k ∧ row' = row) ∨ (k', some row') ∈ (db.transaction x).writes := by
          intro k' row' hwrite
          have hwrite' : (k', some row') ∈
              (D.outcome db.now db.rows (db.transaction x) s).writes
                (D.target s (db.transaction x).seen) ++ (db.transaction x).writes := hwrite
          rw [hput] at hwrite'
          rcases List.mem_append.mp hwrite' with hnew | hwrite'
          · cases List.mem_singleton.mp hnew
            exact Or.inl ⟨rfl, rfl⟩
          · exact Or.inr hwrite'
        by_cases hp : p k row = true
        · right
          refine ⟨x, s, k, row, rfl, htarget, hattempt, hp, ?_⟩
          intro k' hk'
          rcases Database.possible_setTransaction hk' with hk' | ⟨row', hwrite, hp'⟩
          · exact Or.inr hk'
          · rcases hin k' row' hwrite with ⟨rfl, _⟩ | hwrite
            · exact Or.inl rfl
            · exact Or.inr (hold k' row' hwrite hp')
        · left
          intro k' hk'
          rcases Database.possible_setTransaction hk' with hk' | ⟨row', hwrite, hp'⟩
          · exact hk'
          · rcases hin k' row' hwrite with ⟨rfl, rfl⟩ | hwrite
            · exact absurd hp' hp
            · exact hold k' row' hwrite hp'
      · left
        intro k' hk'
        rcases Database.possible_setTransaction hk' with hk' | ⟨row', hwrite, hp'⟩
        · exact hk'
        · have hwrite' : (k', some row') ∈
              (D.outcome db.now db.rows (db.transaction x) s).writes
                (D.target s (db.transaction x).seen) ++ (db.transaction x).writes := hwrite
          rw [hremove] at hwrite'
          rcases List.mem_append.mp hwrite' with hnew | hwrite'
          · cases List.mem_singleton.mp hnew
          · exact hold k' row' hwrite' hp'

end Possible

end ReadCommitted
end ConversationService
