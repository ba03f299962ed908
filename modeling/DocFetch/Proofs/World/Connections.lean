import DocFetch.Proofs.World.Storage
import Mathlib.Data.List.Nodup

/-! # Connections shared

Whoever opens a file gets the one connection and the one lock that it has, until the file is reset or all connections
are closed. Each connection is then closed once, and another one is opened for the next who asks.
-/

namespace DocFetch

namespace Connections

/-! ## One number for each connection -/

/-- The numbers of all connections, those closed first. -/
def numbers (c : Connections) : List Nat := c.closed ++ c.live.map Prod.snd

/-- Every connection has the lock of its file and a number of its own, which was given out. -/
structure Paired (c : Connections) : Prop where
  locks : c.locks = c.live
  files : (c.live.map Prod.fst).Nodup
  numbers : c.numbers.Nodup
  opened : ∀ n ∈ c.numbers, n < c.opened

variable {c c' : Connections} {file other : Path} {n : Nat}

theorem paired_empty : Paired {} := ⟨rfl, List.nodup_nil, List.nodup_nil, nofun⟩

namespace Paired

theorem mem_live_iff (h : c.Paired) : Assoc.get? file c.live = some n ↔ (file, n) ∈ c.live :=
  Assoc.get?_eq_some_iff h.files

theorem notMem_closed (h : c.Paired) (hlive : Assoc.get? file c.live = some n) : n ∉ c.closed := by
  intro hclosed
  have hmem : n ∈ c.live.map Prod.snd := List.mem_map_of_mem (h.mem_live_iff.mp hlive)
  exact (List.nodup_append.mp h.numbers).2.2 n hclosed n hmem rfl

theorem file_unique (h : c.Paired) (hfile : Assoc.get? file c.live = some n)
    (hother : Assoc.get? other c.live = some n) : file = other := by
  have hnumbers := (List.nodup_append.mp h.numbers).2.1
  have hsame := List.inj_on_of_nodup_map hnumbers (h.mem_live_iff.mp hfile) (h.mem_live_iff.mp hother) rfl
  exact congrArg Prod.fst hsame

theorem withNew (h : c.Paired) (hnone : Assoc.get? file c.live = none) : (c.withNew file).Paired := by
  have hnew : file ∉ c.live.map Prod.fst := by
    rw [← Assoc.isSome_get?_iff, hnone]
    exact Bool.false_ne_true
  have hnumbers : (c.withNew file).numbers = c.numbers ++ [c.opened] := by
    rw [Connections.numbers, Connections.withNew, Assoc.put_of_notMem hnew, List.map_append, ← List.append_assoc]
    rfl
  constructor
  · rw [Connections.withNew, h.locks]
  · exact Assoc.nodup_keys_put h.files file c.opened
  · rw [hnumbers]
    exact List.nodup_append.mpr ⟨h.numbers, List.nodup_singleton _, fun n hn m hm heq =>
      absurd (h.opened n hn) (by rw [heq, List.mem_singleton.mp hm]; exact lt_irrefl _)⟩
  · intro n hn
    rw [hnumbers, List.mem_append, List.mem_singleton] at hn
    rcases hn with hold | rfl
    · exact Nat.lt_succ_of_lt (h.opened n hold)
    · exact Nat.lt_succ_self _

theorem of_perm (h : c.Paired) (hlocks : c'.locks = c'.live) (hfiles : (c'.live.map Prod.fst).Nodup)
    (hopened : c'.opened = c.opened) (hnumbers : c'.numbers.Perm c.numbers) : c'.Paired where
  locks := hlocks
  files := hfiles
  numbers := hnumbers.nodup_iff.mpr h.numbers
  opened n hn := by
    rw [hopened]
    exact h.opened n (hnumbers.mem_iff.mp hn)

theorem reset (h : c.Paired) (file : Path) : (c.reset file).Paired := by
  refine h.of_perm ?_ (Assoc.nodup_keys_erase h.files file) rfl ?_
  · rw [Connections.reset, h.locks]
  · rw [Connections.numbers, Connections.reset, List.append_assoc]
    exact (Assoc.perm_values_erase h.files file).append_left c.closed

theorem closeAll (h : c.Paired) : c.closeAll.Paired := by
  refine h.of_perm rfl List.nodup_nil rfl ?_
  rw [Connections.numbers, Connections.closeAll, List.map_nil, List.append_nil]
  exact .refl _

end Paired

/-- What it takes to open a file: it has the connection and the lock of the answer, and all others stay. -/
structure Opens (c : Connections) (file : Path) (answer : Nat × Nat) (c' : Connections) : Prop where
  paired : c'.Paired
  live : Assoc.get? file c'.live = some answer.1
  lock : answer.2 = answer.1
  closed : c'.closed = c.closed
  others : ∀ {other n}, Assoc.get? other c.live = some n → Assoc.get? other c'.live = some n

theorem Paired.has_iff (h : c.Paired) : c.Has file ↔ (Assoc.get? file c.live).isSome = true := by
  rw [Has, h.locks, and_self]

theorem Opens.of_has (h : c.Paired) (hlive : Assoc.get? file c.live = some n) : c.Opens file (n, n) c :=
  ⟨h, hlive, rfl, rfl, id⟩

theorem Opens.withNew (h : c.Paired) (hnone : Assoc.get? file c.live = none) :
    c.Opens file (c.opened, c.opened) (c.withNew file) where
  paired := h.withNew hnone
  live := Assoc.get?_put_self file c.opened c.live
  lock := rfl
  closed := rfl
  others {other n} hother := by
    have hne : file ≠ other := by
      rintro rfl
      rw [hnone] at hother
      cases hother
    rw [Connections.withNew, Assoc.get?_put_of_ne hne, hother]

end Connections

namespace Storage

variable {s s' : Storage} {file : Path} {answer : Nat × Nat} {α P : Type}

/-! ## Files opened -/

/-- The connection and the lock of a file. -/
def openFile (file : Path) : Action Storage (Nat × Nat) := do
  let (answer, connections) ← Connections.openAt file (prepare file) (← get).connections
  modify fun s => { s with connections }
  return answer

/-- Works on the database in a file. -/
def workOn (file : Path) (work : Action Transaction α) : Action Storage α := do
  discard <| openFile file
  let s ← get
  let d ← Action.ofExcept (s.files.database file)
  let ended := work.exec (s.transaction file d)
  set (s.withTransaction file ended.2)
  Action.ofExcept ended.1

/-- Closes the connection to a file and removes the file. -/
def resetFile (file : Path) : Action Storage Unit := do
  modify fun s => { s.rollBack file with connections := s.connections.reset file }
  let s ← get
  if ← Action.ofExcept (s.files.exists? file) then
    let files ← Action.ofExcept (s.files.remove file)
    set { s with files }

theorem connect_eq (path : Path) : connect path = openFile path.resolve >>= fun answer => pure answer.1 := by
  unfold connect openFile
  simp only [bind_assoc, pure_bind]

theorem transact_eq (path : Path) (work : Action Transaction α) :
    transact path work = workOn path.resolve work := by
  have hopen : discard (connect path) = discard (openFile path.resolve) := by
    refine Action.ext fun s => ?_
    rw [connect_eq, Action.exec_discard, Action.exec_discard, Action.exec_bind_pure]
    rcases (openFile path.resolve).exec s with ⟨r, t⟩
    cases r <;> rfl
  unfold transact workOn
  rw [hopen]

def SameConnections (s s' : Storage) : Prop := s'.connections = s.connections

instance : Std.Refl SameConnections := ⟨fun _ => rfl⟩

instance : IsTrans Storage SameConnections := ⟨fun _ _ _ h h' => Eq.trans h' h⟩

theorem prepare_same (file : Path) : (prepare file).Moves SameConnections := by
  unfold prepare
  refine .get_bind fun s => Action.leads_ofExcept_bind fun made _ => Action.leads_set_bind rfl ?_
  refine Action.leads_ofExcept_bind fun opened _ => Action.leads_set_bind rfl ?_
  exact Action.leads_ofExcept_bind fun d _ => Action.leads_ofExcept_bind fun _ _ => rfl

/-- A file that has a connection is always opened, and gets it. -/
theorem exec_openFile_of_live (h : s.connections.Paired) {n : Nat}
    (hlive : Assoc.get? file s.connections.live = some n) : (openFile file).exec s = (.ok (n, n), s) := by
  unfold openFile
  rw [Action.exec_bind_ok (Action.exec_get s), Connections.openAt, h.locks, hlive]
  rfl

theorem exec_openFile_of_none (h : s.connections.Paired) (hlive : Assoc.get? file s.connections.live = none) :
    (openFile file).exec s = (do
      prepare file
      modify fun t => { t with connections := s.connections.withNew file }
      return (s.connections.opened, s.connections.opened) : Action Storage (Nat × Nat)).exec s := by
  have hhas : ¬ s.connections.Has file := by
    rw [h.has_iff, hlive]
    exact Bool.false_ne_true
  unfold openFile
  rw [Action.exec_bind_ok (Action.exec_get s), Connections.openAt_of_not_has hhas]
  simp only [bind_assoc, pure_bind]

/-- A file that has a connection gets it, one that has none gets a new one, and when that fails the connections stay
the same. -/
theorem openFile_cases (h : s.connections.Paired) (file : Path) :
    (∃ answer s', (openFile file).exec s = (.ok answer, s') ∧ s.connections.Opens file answer s'.connections) ∨
      ∃ e s', (openFile file).exec s = (.error e, s') ∧ s'.connections = s.connections := by
  cases hlive : Assoc.get? file s.connections.live with
  | some n => exact .inl ⟨(n, n), s, exec_openFile_of_live h hlive, .of_has h hlive⟩
  | none =>
    have hexec := exec_openFile_of_none h hlive
    rcases hprepare : (prepare file).exec s with ⟨r, t⟩
    cases r with
    | ok u =>
      refine .inl ⟨_, { t with connections := s.connections.withNew file }, ?_, .withNew h hlive⟩
      rw [hexec, Action.exec_bind_ok hprepare]
      rfl
    | error e =>
      refine .inr ⟨e, t, ?_, (prepare_same file).of_exec hprepare⟩
      rw [hexec, Action.exec_bind_error hprepare]

theorem connections_workOn (file : Path) (work : Action Transaction α) (s : Storage) :
    ((workOn file work).exec s).2.connections = ((openFile file).exec s).2.connections := by
  unfold workOn
  rcases hopen : (openFile file).exec s with ⟨r, t⟩
  have hdiscard : (discard (openFile file)).exec s = (r.map fun _ => (), t) := by
    rw [Action.exec_discard, hopen]
  cases r with
  | error e => rw [Action.exec_bind_error hdiscard]
  | ok answer =>
    rw [Action.exec_bind_ok hdiscard]
    refine Action.Moves.get_bind (R := SameConnections) (fun u => ?_) t
    exact Action.leads_ofExcept_bind fun d _ => Action.leads_set_bind rfl rfl

theorem connections_resetFile (file : Path) (s : Storage) :
    ((resetFile file).exec s).2.connections = s.connections.reset file := by
  unfold resetFile
  rw [Action.exec_bind_ok (Action.exec_modify _ s)]
  refine Action.Moves.get_bind (R := SameConnections) (fun u => ?_)
    { s.rollBack file with connections := s.connections.reset file }
  refine Action.leads_ofExcept_bind fun there _ => ?_
  cases there with
  | true => exact Action.leads_ofExcept_bind fun _ _ => rfl
  | false => rfl

/-! ## Calls -/

/-- What is asked of the connections, and what other programs do to the files meanwhile. -/
inductive Call (P α : Type)
  | connect (path : P)
  | session (path : P) (work : Action Transaction α)
  | reset (path : P)
  | closeAll
  | others (f : FileTree → FileTree) (holds : List (Path × Hold))

/-- What a call got that opened a file. -/
structure Opening where
  file : Path
  connection : Nat
  lock : Nat
deriving DecidableEq

namespace Call

variable (resolve : P → Path)

def opening (file : Path) (s : Storage) : Option Opening :=
  ((openFile file).exec s).1.toOption.map fun answer => ⟨file, answer.1, answer.2⟩

/-- What a call opens, if it does. -/
def opened (s : Storage) : Call P α → Option Opening
  | connect path | session path _ => opening (resolve path) s
  | reset _ | closeAll | others .. => none

/-- Whether a call asks for a file to be opened. -/
def asks (file : Path) : Call P α → Bool
  | connect path | session path _ => resolve path = file
  | reset _ | closeAll | others .. => false

/-- Whether a call closes the connection of a file, if it has one. -/
def drops (file : Path) : Call P α → Bool
  | reset path => resolve path = file
  | closeAll => true
  | connect _ | session .. | others .. => false

def next (s : Storage) : Call P α → Storage
  | connect path => ((openFile (resolve path)).exec s).2
  | session path work => ((workOn (resolve path) work).exec s).2
  | reset path => ((resetFile (resolve path)).exec s).2
  | closeAll => s.closeAll
  | others f holds => { s with files := f s.files, holds }

/-- The storage after calls, one after the other. -/
def after (s : Storage) (calls : List (Call P α)) : Storage := calls.foldl (next resolve) s

/-- The call of the program. -/
def perform : Call Path α → Action Storage Unit
  | connect path => discard (Storage.connect path)
  | session path work => discard (Storage.transact path work)
  | reset path => Storage.reset path
  | closeAll => modify Storage.closeAll
  | others f holds => modify fun s => { s with files := f s.files, holds }

theorem exec_perform (c : Call Path α) (s : Storage) : (c.perform.exec s).2 = c.next Path.resolve s := by
  cases c with
  | connect path =>
    change ((discard (Storage.connect path)).exec s).2 = _
    rw [connect_eq, Action.exec_discard, Action.exec_bind_pure]
    rfl
  | session path work =>
    change ((discard (Storage.transact path work)).exec s).2 = _
    rw [transact_eq, Action.exec_discard]
    rfl
  | reset path => rfl
  | closeAll => rfl
  | others f holds => rfl

end Call

/-- What a call does to the connections, where `drops` tells which files' connections it closes. -/
inductive Did (drops : Path → Bool) (c : Connections) : Option Opening → Connections → Prop
  | opened {o : Opening} {c' : Connections} (hdrops : ∀ file, drops file = false)
      (h : c.Opens o.file (o.connection, o.lock) c') : Did drops c (some o) c'
  | nothing (hdrops : ∀ file, drops file = false) : Did drops c none c
  | reset (file : Path) (hdrops : ∀ other, drops other = decide (file = other)) : Did drops c none (c.reset file)
  | closed (hdrops : ∀ file, drops file = true) : Did drops c none c.closeAll

namespace Did

variable {drops : Path → Bool} {c c' : Connections} {r : Option Opening} {o : Opening} {n : Nat}

theorem opens (h : Did drops c (some o) c') : c.Opens o.file (o.connection, o.lock) c' := by
  cases h with
  | opened _ hopens => exact hopens

theorem same (h : Did drops c none c') (hkept : ∀ file, drops file = false) : c' = c := by
  cases h with
  | nothing _ => rfl
  | reset file hdrops => simpa using (hdrops file).symm.trans (hkept file)
  | closed hdrops => cases (hdrops ⟨"/", []⟩).symm.trans (hkept ⟨"/", []⟩)

theorem paired (h : Did drops c r c') (hc : c.Paired) : c'.Paired := by
  cases h with
  | opened _ hopens => exact hopens.paired
  | nothing _ => exact hc
  | reset file _ => exact hc.reset file
  | closed _ => exact hc.closeAll

theorem mem_closed (h : Did drops c r c') (hn : n ∈ c.closed) : n ∈ c'.closed := by
  cases h with
  | opened _ hopens => rwa [hopens.closed]
  | nothing _ => exact hn
  | reset file _ => exact List.mem_append_left _ hn
  | closed _ => exact List.mem_append_left _ hn

theorem live (h : Did drops c r c') (hlive : Assoc.get? file c.live = some n) (hdrops : drops file = false) :
    Assoc.get? file c'.live = some n := by
  cases h with
  | opened _ hopens => exact hopens.others hlive
  | nothing _ => exact hlive
  | reset dropped hdropped =>
    have hne : dropped ≠ file := by simpa using (hdropped file).symm.trans hdrops
    rwa [Connections.reset, Assoc.get?_erase_of_ne hne]
  | closed hall =>
    rw [hall] at hdrops
    cases hdrops

theorem closes (h : Did drops c r c') (hlive : Assoc.get? file c.live = some n) (hdrops : drops file = true) :
    n ∈ c'.closed := by
  cases h with
  | opened hkept _ =>
    rw [hkept] at hdrops
    cases hdrops
  | nothing hkept =>
    rw [hkept] at hdrops
    cases hdrops
  | reset dropped hdropped =>
    have heq : dropped = file := by simpa using (hdropped file).symm.trans hdrops
    rw [Connections.reset, heq, hlive]
    exact List.mem_append_right _ (List.mem_singleton_self n)
  | closed _ =>
    obtain ⟨e, he, hvalue⟩ := Assoc.exists_mem_of_get? hlive
    exact List.mem_append_right _ (List.mem_map.mpr ⟨e, he, hvalue⟩)

end Did

namespace Call

variable {resolve : P → Path} {c : Call P α} {calls : List (Call P α)} {n : Nat}

theorem did_of_opening (h : s.connections.Paired) (hopened : c.opened resolve s = opening file s)
    (hdrops : ∀ other, c.drops resolve other = false)
    (hnext : (c.next resolve s).connections = ((openFile file).exec s).2.connections) :
    Did (fun file => c.drops resolve file) s.connections (c.opened resolve s) (c.next resolve s).connections := by
  rw [hopened, hnext, opening]
  rcases openFile_cases h file with ⟨answer, s', hexec, hopens⟩ | ⟨e, s', hexec, hsame⟩
  · rw [hexec]
    exact .opened hdrops hopens
  · rw [hexec, hsame]
    exact .nothing hdrops

theorem did (resolve : P → Path) (h : s.connections.Paired) (c : Call P α) :
    Did (fun file => c.drops resolve file) s.connections (c.opened resolve s) (c.next resolve s).connections := by
  cases c with
  | connect path => exact did_of_opening h rfl (fun _ => rfl) rfl
  | session path work => exact did_of_opening h rfl (fun _ => rfl) (connections_workOn _ work s)
  | reset path =>
    rw [next, connections_resetFile]
    exact .reset (resolve path) fun _ => rfl
  | closeAll => exact .closed fun _ => rfl
  | others f holds => exact .nothing fun _ => rfl

theorem opened_of_asks (hasks : c.asks resolve file = true) : c.opened resolve s = opening file s := by
  cases c with
  | connect path =>
    obtain rfl : resolve path = file := of_decide_eq_true hasks
    rfl
  | session path work =>
    obtain rfl : resolve path = file := of_decide_eq_true hasks
    rfl
  | reset | closeAll | others => cases hasks

theorem isSome_opening_of_none (h : s.connections.Paired) (hlive : Assoc.get? file s.connections.live = none) :
    (opening file s).isSome = ((prepare file).exec s).1.isOk := by
  rw [opening, exec_openFile_of_none h hlive, Option.isSome_map]
  rcases hprepare : (prepare file).exec s with ⟨r, t⟩
  cases r with
  | ok u =>
    rw [Action.exec_bind_ok hprepare]
    rfl
  | error e =>
    rw [Action.exec_bind_error hprepare]
    rfl

/-! ### Calls one after the other -/

theorem paired_after (resolve : P → Path) (h : s.connections.Paired) (calls : List (Call P α)) :
    (after resolve s calls).connections.Paired := by
  induction calls generalizing s with
  | nil => exact h
  | cons c rest ih => exact ih ((did resolve h c).paired h)

theorem mem_closed_after (h : s.connections.Paired) (hn : n ∈ s.connections.closed) (calls : List (Call P α)) :
    n ∈ (after resolve s calls).connections.closed := by
  induction calls generalizing s with
  | nil => exact hn
  | cons c rest ih => exact ih ((did resolve h c).paired h) ((did resolve h c).mem_closed hn)

theorem live_after (h : s.connections.Paired) (hlive : Assoc.get? file s.connections.live = some n)
    (hdrops : calls.any (drops resolve file) = false) :
    Assoc.get? file (after resolve s calls).connections.live = some n := by
  induction calls generalizing s with
  | nil => exact hlive
  | cons c rest ih =>
    rw [List.any_cons, Bool.or_eq_false_iff] at hdrops
    exact ih ((did resolve h c).paired h) ((did resolve h c).live hlive hdrops.1) hdrops.2

theorem closed_after (h : s.connections.Paired) (hlive : Assoc.get? file s.connections.live = some n)
    (hdrops : calls.any (drops resolve file) = true) : n ∈ (after resolve s calls).connections.closed := by
  induction calls generalizing s with
  | nil => cases hdrops
  | cons c rest ih =>
    have hc := did resolve h c
    cases hfirst : c.drops resolve file with
    | true => exact mem_closed_after (hc.paired h) (hc.closes hlive hfirst) rest
    | false =>
      rw [List.any_cons, hfirst, Bool.false_or] at hdrops
      exact ih (hc.paired h) (hc.live hlive hfirst) hdrops

/-- A connection is closed once if its file is reset or all are closed, and else not at all. -/
theorem count_closed_after (h : s.connections.Paired) (hlive : Assoc.get? file s.connections.live = some n) :
    (after resolve s calls).connections.closed.count n = if calls.any (drops resolve file) then 1 else 0 := by
  have hpaired := paired_after resolve h calls
  cases hdrops : calls.any (drops resolve file) with
  | true =>
    have hnodup := (List.nodup_append.mp hpaired.numbers).1
    exact List.count_eq_one_of_mem hnodup (closed_after h hlive hdrops)
  | false => exact List.count_eq_zero.mpr (hpaired.notMem_closed (live_after h hlive hdrops))

theorem after_append (calls rest : List (Call P α)) :
    after resolve s (calls ++ rest) = after resolve (after resolve s calls) rest := List.foldl_append

/-- A connection is given again just if it is that of the file, and the file was not dropped. -/
theorem opened_again {a b : Call P α} {x y : Opening} {between : List (Call P α)} (h : s.connections.Paired)
    (ha : a.opened resolve s = some x) (hb : b.opened resolve (after resolve (a.next resolve s) between) = some y) :
    (x.connection = y.connection ↔ x.file = y.file ∧ between.any (drops resolve x.file) = false) ∧
    (x.lock = y.lock ↔ x.file = y.file ∧ between.any (drops resolve x.file) = false) := by
  have hdid := did resolve h a
  have hpaired := hdid.paired h
  rw [ha] at hdid
  have hx := hdid.opens
  have hpaired₂ := paired_after resolve hpaired between
  have hdid₂ := did resolve hpaired₂ b
  rw [hb] at hdid₂
  have hy := hdid₂.opens
  have hconnection : x.connection = y.connection ↔
      x.file = y.file ∧ between.any (drops resolve x.file) = false := by
    -- once the file is dropped its connection is closed, and what is opened is not
    cases hdrops : between.any (drops resolve x.file) with
    | true =>
      have hclosed := closed_after hpaired hx.live hdrops
      have hopen := hy.paired.notMem_closed hy.live
      rw [hy.closed] at hopen
      constructor
      · intro heq
        exact absurd (heq ▸ hclosed) hopen
      · rintro ⟨-, ⟨⟩⟩
    | false =>
      have hlive := hy.others (live_after hpaired hx.live hdrops)
      constructor
      · intro heq
        exact ⟨hy.paired.file_unique hlive (heq ▸ hy.live), rfl⟩
      · rintro ⟨heq, -⟩
        rw [heq, hy.live] at hlive
        exact (Option.some.inj hlive).symm
  refine ⟨hconnection, ?_⟩
  rw [← hconnection]
  exact Eq.congr hx.lock hy.lock

end Call

/-- Calls in any order, on paths that lead to files in any way. Live connections and locks are of the same files. Who
asks for a file that has a connection gets it, with its lock, and a file that has none is opened if it can be prepared.
Two openings get the same connection, and the same lock, just if they are of one file that was not dropped in between.
What an opening gets was not closed before, and is closed once when its file is dropped. A call that neither opens nor
drops a file leaves the connections. These are the calls of the program where paths lead to files as they do there. -/
theorem connections_shared (resolve : P → Path) (files : FileTree) :
    let after (calls : List (Call P α)) := Call.after resolve { files } calls
    (∀ calls, (after calls).connections.live.map Prod.fst = (after calls).connections.locks.map Prod.fst) ∧
    (∀ (before between : List (Call P α)) (a b : Call P α) (x : Opening), a.opened resolve (after before) = some x →
      between.any (Call.drops resolve x.file) = false → b.asks resolve x.file = true →
      b.opened resolve (after (before ++ a :: between)) = some x) ∧
    (∀ (calls : List (Call P α)) (a : Call P α) (file : Path), a.asks resolve file = true →
      Assoc.get? file (after calls).connections.live = none →
      (a.opened resolve (after calls)).isSome = ((prepare file).exec (after calls)).1.isOk) ∧
    (∀ (before between : List (Call P α)) (a b : Call P α) (x y : Opening), a.opened resolve (after before) = some x →
      b.opened resolve (after (before ++ a :: between)) = some y →
      (x.connection = y.connection ↔ x.file = y.file ∧ between.any (Call.drops resolve x.file) = false) ∧
      (x.lock = y.lock ↔ x.file = y.file ∧ between.any (Call.drops resolve x.file) = false)) ∧
    (∀ (calls : List (Call P α)) (a : Call P α) (x : Opening), a.opened resolve (after calls) = some x →
      x.connection ∉ (after calls).connections.closed) ∧
    (∀ (before rest : List (Call P α)) (a : Call P α) (x : Opening), a.opened resolve (after before) = some x →
      (after (before ++ a :: rest)).connections.closed.count x.connection =
        if rest.any (Call.drops resolve x.file) then 1 else 0) ∧
    (∀ (calls : List (Call P α)) (a : Call P α), a.opened resolve (after calls) = none →
      (∀ file, a.drops resolve file = false) → (after (calls ++ [a])).connections = (after calls).connections) ∧
    (∀ (c : Call Path α) (s : Storage), (c.perform.exec s).2 = c.next Path.resolve s) ∧
    ∀ (path : Path) (s : Storage),
      ((connect path).exec s).1.toOption = (Call.opening path.resolve s).map Opening.connection := by
  intro after
  have hpaired (calls : List (Call P α)) : (after calls).connections.Paired :=
    Call.paired_after resolve Connections.paired_empty calls
  have hopened {calls : List (Call P α)} {a : Call P α} {x : Opening}
      (ha : a.opened resolve (after calls) = some x) :
      (after calls).connections.Opens x.file (x.connection, x.lock) (a.next resolve (after calls)).connections := by
    have hdid := Call.did resolve (hpaired calls) a
    rw [ha] at hdid
    exact hdid.opens
  have hafter (calls rest : List (Call P α)) (a : Call P α) :
      after (calls ++ a :: rest) = Call.after resolve (a.next resolve (after calls)) rest := Call.after_append calls _
  refine ⟨fun calls => ?_, fun before between a b x ha hdrops hb => ?_, fun calls a file ha hnone => ?_,
    fun before between a b x y ha hb => ?_, fun calls a x ha => ?_, fun before rest a x ha => ?_,
    fun calls a ha hkept => ?_, Call.exec_perform, fun path s => ?_⟩
  · rw [(hpaired calls).locks]
  · have hlive := Call.live_after (hopened ha).paired (hopened ha).live hdrops
    rw [← hafter] at hlive
    have hlock : x.lock = x.connection := (hopened ha).lock
    rw [Call.opened_of_asks hb, Call.opening, exec_openFile_of_live (hpaired _) hlive]
    exact congrArg (fun lock => some (⟨x.file, x.connection, lock⟩ : Opening)) hlock.symm
  · rw [Call.opened_of_asks ha, Call.isSome_opening_of_none (hpaired calls) hnone]
  · rw [hafter] at hb
    exact Call.opened_again (hpaired before) ha hb
  · rw [← (hopened ha).closed]
    exact (hopened ha).paired.notMem_closed (hopened ha).live
  · rw [hafter]
    exact Call.count_closed_after (hopened ha).paired (hopened ha).live
  · have hdid := Call.did resolve (hpaired calls) a
    rw [ha] at hdid
    rw [hafter]
    exact hdid.same hkept
  · rw [connect_eq, Action.exec_bind_pure, Call.opening]
    rcases (openFile path.resolve).exec s with ⟨r, t⟩
    cases r <;> rfl

/-- One file by two paths, which is opened again after a reset. -/
theorem connections_shared_reopened :
    let direct : Path := ⟨"/", ["a"]⟩
    let around : Path := ⟨"/", ["b", "..", "a"]⟩
    let first : Call Path Unit := .connect direct
    let second : Call Path Unit := .session around (Transaction.read fun _ => .ok ())
    let reset : Call Path Unit := .reset direct
    let after (calls : List (Call Path Unit)) := Call.after Path.resolve {} calls
    first.opened Path.resolve (after []) = some ⟨direct, 0, 0⟩ ∧
    second.opened Path.resolve (after [first]) = some ⟨direct, 0, 0⟩ ∧
    (∃ x, second.opened Path.resolve (after [first, reset]) = some x ∧ x.connection ≠ 0 ∧ x.lock ≠ 0) ∧
    (after [first, reset, second]).connections.closed.count 0 = 1 := by
  intro direct around first second reset after
  obtain ⟨-, hagain, hfresh, hshared, -, hclosed, -⟩ := connections_shared (α := Unit) Path.resolve {}
  have hfirst : first.opened Path.resolve (after []) = some ⟨direct, 0, 0⟩ := by decide +kernel
  refine ⟨hfirst, hagain [] [] first second _ hfirst rfl rfl, ?_, hclosed [] [reset, second] first _ hfirst⟩
  have hnone : Assoc.get? direct (after [first, reset]).connections.live = none := by decide +kernel
  have hprepared : ((prepare direct).exec (after [first, reset])).1.isOk = true := by decide +kernel
  obtain ⟨x, hx⟩ := Option.isSome_iff_exists.mp ((hfresh [first, reset] second direct rfl hnone).trans hprepared)
  obtain ⟨hconnection, hlock⟩ := hshared [] [reset] first second _ x hfirst hx
  have hdropped : [reset].any (Call.drops Path.resolve direct) = true := rfl
  refine ⟨x, hx, fun heq => ?_, fun heq => ?_⟩
  · cases hdropped.symm.trans (hconnection.mp heq.symm).2
  · cases hdropped.symm.trans (hlock.mp heq.symm).2

end Storage

end DocFetch
