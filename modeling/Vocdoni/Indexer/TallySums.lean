import Vocdoni.Tally.Linear
import Vocdoni.Indexer.LiveTally
import Vocdoni.Indexer.CommitOrder

/-!
# The recount and a commit as sums

Read as vectors (`Results.vec`), tallies add up ballot by ballot. This module writes
the two sides of the live-results refinement as sums over association lists:

* `recount_vec` — the recount of a process is the sum of its committed ballots'
  contributions;
* `sum_foldr_assocSet` — committing a block's ballots over the committed ones adds
  each new entry and removes the one it replaces;
* `tallyOf_commitWrites` — a commit changes a process's results only through that
  process's pooled ballots (`committedResults`);
* `commitAccumulators_eq`, `vec_foldl_tallyStepIf` — `Commit`'s two accumulators are
  sums of the contributions of the ballots each one takes.
-/

namespace Vocdoni.Vochain

open Vocdoni.Tally

/-! ## Sums over association lists -/

section Sums

variable {K V M : Type} [DecidableEq K] [AddCommGroup M]

/-- The keys of an association list are distinct. -/
def KeysNodup (m : Assoc K V) : Prop :=
  (m.map Prod.fst).Nodup

theorem keysNodup_assocSet {m : Assoc K V} (h : KeysNodup m) (k : K) (v : V) :
    KeysNodup (assocSet m k v) := by
  unfold KeysNodup assocSet at *
  rw [List.map_cons, List.nodup_cons]
  refine ⟨?_, (h.sublist ((List.filter_sublist m).map Prod.fst))⟩
  simp

/-- The value of `k`'s entry under `F`, zero without one. -/
def lookupTerm (m : Assoc K V) (F : K × V → M) (k : K) : M :=
  ((assocGet m k).map fun u => F (k, u)).getD 0

theorem sum_filter_ne {m : Assoc K V} (h : KeysNodup m) (F : K × V → M) (k : K) :
    ((m.filter fun e => !decide (e.1 = k)).map F).sum = (m.map F).sum - lookupTerm m F k := by
  induction m with
  | nil => simp [lookupTerm]
  | cons e m ih =>
    obtain ⟨k', v'⟩ := e
    unfold KeysNodup at h
    rw [List.map_cons, List.nodup_cons] at h
    by_cases hk : k' = k
    · subst hk
      have absent : ∀ e ∈ m, e.1 ≠ k' := fun e he heq =>
        h.1 (show k' ∈ m.map Prod.fst from heq ▸ List.mem_map_of_mem Prod.fst he)
      have keep : m.filter (fun e => !decide (e.1 = k')) = m :=
        List.filter_eq_self.mpr fun e he => by simp [absent e he]
      simp [List.filter_cons, lookupTerm, assocGet, keep]
    · have ih := ih h.2
      simp only [lookupTerm] at ih ⊢
      simp [List.filter_cons, hk, assocGet, ih]
      abel

theorem sum_assocSet {m : Assoc K V} (h : KeysNodup m) (F : K × V → M) (k : K) (v : V) :
    ((assocSet m k v).map F).sum = (m.map F).sum - lookupTerm m F k + F (k, v) := by
  rw [assocSet, List.map_cons, List.sum_cons, sum_filter_ne h]
  abel

theorem assocGet_foldr_assocSet {k : K} (c : Assoc K V) :
    ∀ (pending : Assoc K V), k ∉ pending.map Prod.fst →
      assocGet (pending.foldr (fun e m => assocSet m e.1 e.2) c) k = assocGet c k
  | [], _ => rfl
  | e :: pending, hk => by
    simp only [List.map_cons, List.mem_cons, not_or] at hk
    simp [assocGet_assocSet, Ne.symm hk.1, assocGet_foldr_assocSet c pending hk.2]

theorem keysNodup_foldr_assocSet {c : Assoc K V} (hc : KeysNodup c) :
    ∀ pending : Assoc K V, KeysNodup (pending.foldr (fun e m => assocSet m e.1 e.2) c)
  | [] => hc
  | _ :: pending => keysNodup_assocSet (keysNodup_foldr_assocSet hc pending) _ _

/-- Replacing entries: the sum over the result is the old sum, plus each new entry,
minus the entry it replaces. -/
theorem sum_foldr_assocSet {c : Assoc K V} (hc : KeysNodup c) (F : K × V → M) :
    ∀ pending : Assoc K V, KeysNodup pending →
      ((pending.foldr (fun e m => assocSet m e.1 e.2) c).map F).sum =
        (c.map F).sum + (pending.map fun e => F e - lookupTerm c F e.1).sum
  | [], _ => by simp
  | e :: pending, hp => by
    unfold KeysNodup at hp
    rw [List.map_cons, List.nodup_cons] at hp
    have rest := sum_foldr_assocSet hc F pending hp.2
    have same : lookupTerm (pending.foldr (fun e m => assocSet m e.1 e.2) c) F e.1 =
        lookupTerm c F e.1 := by
      simp only [lookupTerm, assocGet_foldr_assocSet c pending hp.1]
    rw [List.foldr_cons, sum_assocSet (keysNodup_foldr_assocSet hc pending), rest, same, List.map_cons,
      List.sum_cons]
    abel

theorem sum_map_eq_sum_filter {α : Type} (l : List α) (p : α → Bool) (f : α → M)
    (zero : ∀ e ∈ l, p e = false → f e = 0) : (l.map f).sum = ((l.filter p).map f).sum := by
  induction l with
  | nil => rfl
  | cons e l ih =>
    have ih := ih fun e' he' => zero e' (List.mem_cons_of_mem e he')
    cases hp : p e
    · simp [List.filter_cons, hp, zero e (List.mem_cons_self e l) hp, ih]
    · simp [List.filter_cons, hp, ih]

theorem sum_map_sub_distrib {α : Type} (l : List α) (f g : α → M) :
    (l.map fun x => f x - g x).sum = (l.map f).sum - (l.map g).sum := by
  induction l with
  | nil => simp
  | cons x l ih => simp only [List.map_cons, List.sum_cons, ih]; abel

end Sums

/-! ## The recount as a sum -/

/-- The contribution of a committed ballot, as the bootstrap tallies it. -/
def stateContribution (opts : ProcessVoteOptions) (q : StateDBVote) : (Nat × Nat → Int) × Int :=
  contribution opts (q.votePackage, some (setBytes q.weight))

/-- An entry of the chain's ballots, as it counts in the recount of `pid`. -/
def recountTerm (opts : ProcessVoteOptions) (pid : Bytes) (e : (Bytes × Bytes) × StateDBVote) :
    (Nat × Nat → Int) × Int :=
  if e.1.1 = pid then stateContribution opts e.2 else 0

theorem tallyBallots_vec (opts : ProcessVoteOptions) (votes : List StateDBVote) :
    (tallyBallots opts votes).vec = (votes.map (stateContribution opts)).sum ∧
      (tallyBallots opts votes).shape = (Results.empty opts).shape := by
  have folded := Results.vec_foldl_tallyStep opts
    (votes.map fun v => (v.votePackage, some (setBytes v.weight))) rfl
  rw [List.foldl_map, List.map_map, Results.vec_empty, zero_add] at folded
  exact folded

/-- **The recount is the sum of the committed ballots' contributions.** -/
theorem recount_vec (c : Chain) (opts : ProcessVoteOptions) (pid : Bytes) :
    (recount c.app opts pid).vec = (c.committed.map (recountTerm opts pid)).sum ∧
      (recount c.app opts pid).shape = (Results.empty opts).shape := by
  have sum : (c.committed.map (recountTerm opts pid)).sum =
      ((c.committedVotes pid).map (stateContribution opts)).sum := by
    rw [sum_map_eq_sum_filter _ (fun e => decide (e.1.1 = pid)) _
      (fun e _ he => by simp_all [recountTerm]), Chain.committedVotes, List.map_map]
    congr 1
    exact List.map_congr_left fun e he => by simp_all [recountTerm]
  rw [sum]
  obtain ⟨hv, hs⟩ := tallyBallots_vec opts (c.committedVotes pid)
  simp only [recount, Chain.app]
  cases h : c.committedVotes pid with
  | nil => simp
  | cons v votes =>
    rw [h] at hv hs
    dsimp only
    exact ⟨by rw [Results.vec_add hs.symm, hv, Results.vec_empty, zero_add],
      (Results.shape_add hs.symm)⟩

/-! ## A commit, for one process -/

/-- The vote options and results of a process's row. -/
def Db.tallyOf (db : Db) (pid : Bytes) : Option (ProcessVoteOptions × Results) :=
  (assocGet db.processes pid).map fun row => (row.voteOpts, row.results)

theorem tallyOf_assocUpdate (db : Db) (p pid : Bytes) (f : ProcessRow → ProcessRow) :
    ({ db with processes := assocUpdate db.processes p f } : Db).tallyOf pid =
      if p = pid then (assocGet db.processes pid).map (fun row => ((f row).voteOpts, (f row).results))
      else db.tallyOf pid := by
  simp only [Db.tallyOf, assocGet_assocUpdate]
  split <;> simp [Option.map_map, Function.comp_def]

theorem tallyOf_updateProcess (app : App) (pid : Bytes) (db : Db) (p : Bytes) :
    ((updateProcess app p db).getD db).tallyOf pid = db.tallyOf pid := by
  unfold updateProcess
  split
  · rw [Option.getD_some, tallyOf_assocUpdate]
    split
    · subst_vars; rfl
    · rfl
  · rfl

theorem tallyOf_computeProcessVoteCount (pid : Bytes) (db : Db) (p : Bytes) :
    (computeProcessVoteCount p db).tallyOf pid = db.tallyOf pid := by
  rw [computeProcessVoteCount, tallyOf_assocUpdate]
  split
  · subst_vars; rfl
  · rfl

/-- The results a commit stores for a process of the pool. -/
def committedResults (app : App) (votes : Assoc Bytes Vote) (t : ProcessVoteOptions × Results) :
    ProcessVoteOptions × Results :=
  (t.1, t.2.applyDelta (commitAccumulators app t.1 votes).1 (commitAccumulators app t.1 votes).2)

theorem tallyOf_foldl_commitProcessVotes (app : App) (pid : Bytes) :
    ∀ (pool : VotePool) (db : Db), KeysNodup pool →
      (pool.foldl (fun db e => commitProcessVotes app e.1 e.2 db) db).tallyOf pid =
        match assocGet pool pid with
        | some votes => (db.tallyOf pid).map (committedResults app votes)
        | none => db.tallyOf pid
  | [], db, _ => rfl
  | (p, votes) :: pool, db, keys => by
    unfold KeysNodup at keys
    rw [List.map_cons, List.nodup_cons] at keys
    rw [List.foldl_cons, tallyOf_foldl_commitProcessVotes app pid pool _ keys.2,
      commitProcessVotes_eq, tallyOf_assocUpdate]
    by_cases hp : p = pid
    · subst hp
      have absent : assocGet pool p = none := by
        cases h : assocGet pool p with
        | none => rfl
        | some u => exact absurd (mem_keys_of_assocGet h) keys.1
      simp only [absent, assocGet, if_true, Db.tallyOf, Option.map_map]
      rfl
    · simp [hp, assocGet]

theorem tallyOf_commitWrites (app : App) (idx : Indexer) (height : Nat) (pid : Bytes)
    (keys : KeysNodup idx.votePool) :
    (commitWrites app idx height).tallyOf pid =
      match assocGet idx.votePool pid with
      | some votes => (idx.txDb.tallyOf pid).map (committedResults app votes)
      | none => idx.txDb.tallyOf pid := by
  unfold commitWrites
  refine (foldl_eq_of_step (fun db => db.tallyOf pid)
    (fun db p => tallyOf_computeProcessVoteCount pid db p) _ _).trans ?_
  refine (tallyOf_foldl_commitProcessVotes app pid _ _ keys).trans ?_
  rw [foldl_eq_of_step (fun db => db.tallyOf pid) (fun db p => tallyOf_updateProcess app pid db p)]
  cases app.getBlockByHeight height <;> rfl

/-! ## The accumulators as sums -/

theorem commitAccumulators_eq (app : App) (opts : ProcessVoteOptions) (votes : Assoc Bytes Vote) :
    commitAccumulators app opts votes =
      (votes.foldl (fun r e => tallyStepIf (addsNew app opts e.2) opts r (e.2.votePackage, e.2.weight))
          (Results.empty opts),
        votes.foldl (fun r e => tallyStepIf (subtractsPrevious app opts e.2) opts r
          (previousBallot app e.2)) (Results.empty opts)) := by
  suffices h : ∀ acc : Results × Results,
      votes.foldl (fun acc e => commitBallot app opts acc e.2) acc =
        (votes.foldl (fun r e => tallyStepIf (addsNew app opts e.2) opts r
            (e.2.votePackage, e.2.weight)) acc.1,
          votes.foldl (fun r e => tallyStepIf (subtractsPrevious app opts e.2) opts r
            (previousBallot app e.2)) acc.2) from h _
  induction votes with
  | nil => intro acc; rfl
  | cons e votes ih => intro acc; rw [List.foldl_cons, commitBallot_eq]; exact ih _

theorem vec_foldl_tallyStepIf (opts : ProcessVoteOptions) {α : Type} (g : α → Bool)
    (x : α → VotePackage × Option Int) (xs : List α) {r : Results}
    (h : r.shape = (Results.empty opts).shape) :
    (xs.foldl (fun r e => tallyStepIf (g e) opts r (x e)) r).vec =
        r.vec + (xs.map fun e => if g e then contribution opts (x e) else 0).sum ∧
      (xs.foldl (fun r e => tallyStepIf (g e) opts r (x e)) r).shape = r.shape := by
  induction xs generalizing r with
  | nil => simp
  | cons e xs ih =>
    have step : (tallyStepIf (g e) opts r (x e)).shape = r.shape ∧
        (tallyStepIf (g e) opts r (x e)).vec = r.vec + if g e then contribution opts (x e) else 0 := by
      unfold tallyStepIf
      cases g e
      · simp
      · exact ⟨Results.shape_tallyStep opts r (x e), Results.vec_tallyStep opts h (x e)⟩
    obtain ⟨hv, hs⟩ := ih (step.1.trans h)
    refine ⟨?_, hs.trans step.1⟩
    rw [List.foldl_cons, hv, step.2, List.map_cons, List.sum_cons, add_assoc]

end Vocdoni.Vochain
