import RelayTale.Queue.Inversion

/-!
# Runs, seen from one message

Every operation performs at most one action on a given message, or creates it.
What a run commits to one message is its history there, and what holds along
every history is proved of the single actions.
-/

namespace RelayTale.Queue

open Guard

section Put

variable {id target : MessageID}

theorem put_self (db : Db) (id : MessageID) (m : Message) :
    (db.put id m).messages id = some m := by
  simp [Db.put]

theorem put_other (db : Db) (m : Message) (other : target ≠ id) :
    (db.put id m).messages target = db.messages target := by
  simp [Db.put, other]

end Put

variable [Primitives]

def Op.actionOn (target : MessageID) : Op → Option Action
  | .transact id action => if id = target then some action else none
  | .batch ids action => if target ∈ ids then some action else none
  | .replace old _ identity clock _ =>
      if old = target then some (.cancelPending identity true clock) else none
  | _ => none

section Steps

variable {db db' : Db} {id target : MessageID} {action : Action}

theorem perform_ok (committed : db.perform action id = .ok db') :
    ∃ m m', db.messages id = some m ∧ action.perform db.entries m = .ok m' ∧
      db' = db.put id m' := by
  simp only [Db.perform, do_eq_ok, demand_eq_ok, pure_eq_ok] at committed
  obtain ⟨m, found, m', performed, rfl⟩ := committed
  exact ⟨m, m', found, performed, rfl⟩

theorem enqueue_ok {s : Submission} (committed : db.enqueue id s = .ok db') :
    ∃ m, db.messages id = none ∧ s.enqueue db.entries = .ok m ∧ db' = db.put id m := by
  simp only [Db.enqueue, do_eq_ok, require_eq_ok, pure_eq_ok, exists_const,
    Option.isNone_iff_eq_none] at committed
  obtain ⟨absent, m, enqueued, rfl⟩ := committed
  exact ⟨m, absent, enqueued, rfl⟩

theorem performAll_ok {ids : List MessageID} (distinct : ids.Nodup)
    (committed : Db.performAll action ids db = .ok db') :
    db'.entries = db.entries ∧
      (∀ target ∈ ids, ∃ m m', db.messages target = some m ∧
        action.perform db.entries m = .ok m' ∧ db'.messages target = some m') ∧
      ∀ target, target ∉ ids → db'.messages target = db.messages target := by
  induction ids generalizing db with
  | nil =>
    simp only [Db.performAll, pure_eq_ok] at committed
    subst committed
    simp
  | cons id rest ih =>
    simp only [Db.performAll, do_eq_ok] at committed
    obtain ⟨middle, first, later⟩ := committed
    obtain ⟨m, m', found, performed, rfl⟩ := perform_ok first
    obtain ⟨fresh, distinct⟩ := List.nodup_cons.mp distinct
    obtain ⟨entries, touched, untouched⟩ := ih distinct later
    refine ⟨entries, ?_, ?_⟩
    · intro target membership
      rcases List.mem_cons.mp membership with rfl | membership
      · exact ⟨m, m', found, performed, (untouched _ fresh).trans (put_self db _ m')⟩
      · have other : target ≠ id := fun same => fresh (same ▸ membership)
        obtain ⟨n, n', found', performed', result⟩ := touched target membership
        exact ⟨n, n', (put_other db m' other) ▸ found', performed', result⟩
    · intro target outside
      rw [List.mem_cons, not_or] at outside
      rw [untouched target outside.2, put_other db m' outside.1]

theorem step_transact {m m' : Message} (single : action.batched = false)
    (found : db.messages id = some m) (performed : action.perform db.entries m = .ok m') :
    db.step (.transact id action) = .ok (db.put id m') := by
  simp only [Db.step, do_eq_ok, require_eq_ok, exists_const, Db.perform, demand_eq_ok, pure_eq_ok]
  exact ⟨single, m, found, m', performed, rfl⟩

inductive Touched (op : Op) (db db' : Db) (target : MessageID) : Prop
  | performed {action : Action} {m m' : Message} (acts : op.actionOn target = some action)
      (before : db.messages target = some m) (performed : action.perform db.entries m = .ok m')
      (after : db'.messages target = some m')
  | created {s : Submission} {m : Message} (idle : op.actionOn target = none)
      (before : db.messages target = none) (created : s.enqueue db.entries = .ok m)
      (after : db'.messages target = some m)
  | untouched (idle : op.actionOn target = none)
      (same : db'.messages target = db.messages target)

theorem touched_of_perform {op : Op} (acts : op.actionOn target = if id = target then some action else none)
    (committed : db.perform action id = .ok db') : Touched op db db' target := by
  obtain ⟨m, m', found, performed, rfl⟩ := perform_ok committed
  by_cases same : id = target
  · subst same
    exact .performed (by simpa using acts) found performed (put_self db id m')
  · exact .untouched (by simpa [same] using acts) (put_other db m' (Ne.symm same))

theorem touched_of_enqueue {op : Op} {s : Submission} (idle : op.actionOn target = none)
    (committed : db.enqueue id s = .ok db') : Touched op db db' target := by
  obtain ⟨m, absent, enqueued, rfl⟩ := enqueue_ok committed
  by_cases same : target = id
  · subst same
    exact .created idle absent enqueued (put_self db _ m)
  · exact .untouched idle (put_other db m same)

theorem step_touched {op : Op} (committed : db.step op = .ok db') (target : MessageID) :
    Touched op db db' target := by
  cases op with
  | enqueue id s => exact touched_of_enqueue rfl committed
  | transact id action =>
    simp only [Db.step, do_eq_ok, require_eq_ok, exists_const] at committed
    exact touched_of_perform rfl committed.2
  | batch ids action =>
    simp only [Db.step, do_eq_ok, require_eq_ok, exists_const] at committed
    obtain ⟨⟨-, distinct, -⟩, committed⟩ := committed
    obtain ⟨-, touched, untouched⟩ := performAll_ok distinct committed
    by_cases inside : target ∈ ids
    · obtain ⟨m, m', before, performed, after⟩ := touched target inside
      exact .performed (by simp [Op.actionOn, inside]) before performed after
    · exact .untouched (by simp [Op.actionOn, inside]) (untouched target inside)
  | replace old new identity clock s =>
    simp only [Db.step, do_eq_ok, require_eq_ok, exists_const] at committed
    obtain ⟨-, middle, cancelled, enqueued⟩ := committed
    obtain ⟨m, m', found, performed, rfl⟩ := perform_ok cancelled
    obtain ⟨n, absent, created, rfl⟩ := enqueue_ok enqueued
    have different : new ≠ old := by
      rintro rfl
      simp [put_self] at absent
    rw [put_other db m' different] at absent
    by_cases replaced : target = old
    · subst replaced
      refine .performed (by simp [Op.actionOn]) found performed ?_
      rw [put_other _ n (Ne.symm different), put_self]
    · have idle : (Op.replace old new identity clock s).actionOn target = none := by
        simp [Op.actionOn, Ne.symm replaced]
      by_cases creating : target = new
      · subst creating
        exact .created idle absent created (put_self _ _ n)
      · refine .untouched idle ?_
        rw [put_other _ n creating, put_other db m' replaced]
  | addSuppression v =>
    simp only [Db.step, do_eq_ok, pure_eq_ok] at committed
    obtain ⟨entries, -, rfl⟩ := committed
    exact .untouched rfl rfl
  | releaseSuppression id clock =>
    simp only [Db.step, do_eq_ok, pure_eq_ok] at committed
    obtain ⟨entries, -, rfl⟩ := committed
    exact .untouched rfl rfl

end Steps

section Histories

structure Commit where
  entries : List Entry
  before : Message
  action : Action
  after : Message
  performed : action.perform entries before = .ok after

def Db.commit (target : MessageID) (db : Db) (op : Op) : Option Commit :=
  match db.step op, op.actionOn target, db.messages target with
  | .ok _, some action, some m =>
      match performed : action.perform db.entries m with
      | .ok m' => some ⟨db.entries, m, action, m', performed⟩
      | .error _ => none
  | _, _, _ => none

def Db.history (target : MessageID) : Db → List Op → List Commit
  | _, [] => []
  | db, op :: rest => (db.commit target op).toList ++ (db.after op).history target rest

inductive Follows : Message → List Commit → Message → Prop
  | nil (m : Message) : Follows m [] m
  | cons {rest : List Commit} {m' : Message} (c : Commit) (later : Follows c.after rest m') :
      Follows c.before (c :: rest) m'

variable {db : Db} {target : MessageID} {op : Op} {m m' : Message}

theorem after_of_ok {db' : Db} (committed : db.step op = .ok db') : db.after op = db' := by
  simp [Db.after, committed]

theorem after_of_error {refusal : Refusal} (refused : db.step op = .error refusal) :
    db.after op = db := by
  simp [Db.after, refused]

theorem commit_follows (op : Op) (found : db.messages target = some m) :
    ∃ m', (db.after op).messages target = some m' ∧
      Follows m (db.commit target op).toList m' := by
  cases committed : db.step op with
  | error refusal =>
    refine ⟨m, by rwa [after_of_error committed], ?_⟩
    simp only [Db.commit, committed, Option.toList_none]
    exact .nil m
  | ok db' =>
    rw [after_of_ok committed]
    cases step_touched committed target with
    | performed acts before performed after =>
      obtain rfl := Option.mem_unique before found
      refine ⟨_, after, ?_⟩
      simp only [Db.commit, committed, acts, found]
      split
      next again =>
        obtain rfl := Except.ok.inj (again.symm.trans performed)
        exact .cons ⟨db.entries, _, _, _, performed⟩ (.nil _)
      next again => cases again.symm.trans performed
    | created idle before => cases before.symm.trans found
    | untouched idle same =>
      refine ⟨m, same ▸ found, ?_⟩
      simp only [Db.commit, committed, idle, Option.toList_none]
      exact .nil m

theorem Follows.append {first second : List Commit} {middle : Message}
    (earlier : Follows m first middle) (later : Follows middle second m') :
    Follows m (first ++ second) m' := by
  induction earlier with
  | nil => exact later
  | cons c _ ih => exact .cons c (ih later)

theorem run_follows (ops : List Op) (found : db.messages target = some m) :
    ∃ m', (db.run ops).messages target = some m' ∧ Follows m (db.history target ops) m' := by
  induction ops generalizing db m with
  | nil => exact ⟨m, found, .nil m⟩
  | cons op rest ih =>
    obtain ⟨middle, reached, first⟩ := commit_follows op found
    obtain ⟨m', last, later⟩ := ih reached
    exact ⟨m', last, first.append later⟩

theorem commit_of_absent (absent : db.messages target = none) : db.commit target op = none := by
  unfold Db.commit
  split
  next found => cases absent.symm.trans found
  · rfl

/-- A message of a reached state was created and then moved by its history. -/
theorem run_created (ops : List Op) (absent : db.messages target = none)
    (found : (db.run ops).messages target = some m) :
    ∃ entries s fresh, Submission.enqueue entries s = .ok fresh ∧
      Follows fresh (db.history target ops) m := by
  induction ops generalizing db with
  | nil => cases absent.symm.trans found
  | cons op rest ih =>
    rw [Db.history, commit_of_absent absent, Option.toList_none, List.nil_append]
    cases committed : db.step op with
    | error refusal =>
      rw [after_of_error committed]
      apply ih absent
      rwa [Db.run, List.foldl_cons, after_of_error committed] at found
    | ok db' =>
      rw [after_of_ok committed]
      rw [Db.run, List.foldl_cons, after_of_ok committed] at found
      cases step_touched committed target with
      | performed _ before => cases absent.symm.trans before
      | untouched _ same => exact ih (same.trans absent) found
      | created idle before created after =>
        obtain ⟨m', reached, follows⟩ := run_follows rest after
        obtain rfl := Option.mem_unique reached found
        exact ⟨_, _, _, created, follows⟩

theorem history_of_absent (ops : List Op) (absent : (db.run ops).messages target = none) :
    db.history target ops = [] := by
  induction ops generalizing db with
  | nil => rfl
  | cons op rest ih =>
    cases before : db.messages target with
    | some m =>
      obtain ⟨m', found, -⟩ := run_follows (op :: rest) before
      cases absent.symm.trans found
    | none =>
      rw [Db.history, commit_of_absent before, Option.toList_none, List.nil_append]
      exact ih absent

theorem Follows.keeps {P : Message → Prop} {commits : List Commit}
    (follows : Follows m commits m') (keeps : ∀ c ∈ commits, P c.before → P c.after)
    (holds : P m) : P m' := by
  induction follows with
  | nil => exact holds
  | cons c _ ih =>
    exact ih (fun d member => keeps d (List.mem_cons_of_mem c member))
      (keeps c List.mem_cons_self holds)

theorem Follows.before {P : Message → Prop} {commits : List Commit}
    (follows : Follows m commits m') (keeps : ∀ c : Commit, P c.before → P c.after)
    (holds : P m) : ∀ c ∈ commits, P c.before := by
  induction follows with
  | nil => simp
  | cons c _ ih =>
    intro d member
    rcases List.mem_cons.mp member with rfl | member
    · exact holds
    · exact ih (keeps c holds) d member

end Histories

def Reachable (db : Db) : Prop := ∃ ops, db = Db.empty.run ops

/-- A property of messages that holds when they are created and that every
action keeps holds of all messages in all runs. -/
theorem Reachable.invariant {P : Message → Prop}
    (created : ∀ entries s m, Submission.enqueue entries s = .ok m → P m)
    (performed : ∀ c : Commit, P c.before → P c.after)
    {db : Db} (reached : Reachable db) {id : MessageID} {m : Message}
    (found : db.messages id = some m) : P m := by
  obtain ⟨ops, rfl⟩ := reached
  obtain ⟨entries, s, fresh, enqueued, follows⟩ := run_created ops rfl found
  exact follows.keeps (fun c _ => performed c) (created entries s fresh enqueued)

end RelayTale.Queue
