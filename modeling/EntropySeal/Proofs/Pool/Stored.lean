import EntropySeal.Pool.Stored
import EntropySeal.Proofs.Machine
import EntropySeal.Proofs.Pool.State

/-!
# The pool in memory and the pool in the file

A stored pool changes in memory first and is written afterwards, and the write
can fail.  So memory can run ahead of the file, but the file is never anything
but the record of the pool as it was written last: `Reached` carries that pool
along with every run of requests, and `Consistent` is what each request keeps.
Performing any requests in turn on a pool that was opened or made is such a run, so
its file always opens (`consistent_of_requests`).

Nobody else is supposed to touch the file, and a write to put the whole record
there or to leave what was there (`Machine.Faithful`).  The rest of the world may
change between any two requests.
-/

namespace EntropySeal.StoredPool

open Pool (State)

variable {σ : Type} [Machine σ]

/-! ## Files that open -/

/-- The file at a path opens to a pool under a key. -/
def Holds (path : String) (key : Bytes) (world : σ) (s : State) : Prop :=
  ∃ content, Machine.readFile path world = .ok content ∧
    Pool.decode (Pool.mask key content) = .ok s

section Holds

variable {path : String} {key : Bytes} {world after : σ} {s : State}

/-- Only valid pools are ever found in a file. -/
theorem Holds.valid (holds : Holds path key world s) : s.Valid := by
  obtain ⟨content, -, opened⟩ := holds
  exact (Pool.opens_iff.mp opened).1

/-- A file that was not touched opens to what it opened to. -/
theorem Holds.untouched (holds : Holds path key world s)
    (same : Machine.readFile path after = Machine.readFile path world) :
    Holds path key after s := by
  obtain ⟨content, read, opened⟩ := holds
  exact ⟨content, same.trans read, opened⟩

end Holds

/-! ## Requests -/

/-- What is asked of a stored pool. -/
inductive Request where
  | fill (n : Nat)
  | stir (material : Bytes)

/-- The pool in memory after a request, written or not. -/
def Request.change : Request → State → State
  | .fill n, s => (s.take n).2
  | .stir material, s => s.stir material

/-- Perform a request, for its success alone. -/
def perform (p : StoredPool) : Request → Action σ (Except Error Unit × StoredPool)
  | .fill n => do
      let (delivery, p) ← p.fill n
      pure (delivery.toExcept.map fun _ => (), p)
  | .stir material => p.stir material

theorem Request.valid_change {s : State} (valid : s.Valid) (request : Request) :
    (request.change s).Valid := by
  cases request with
  | fill n => exact valid.take n
  | stir material => exact valid.stir material

/-- A request for nothing does nothing, so one that fails is for something. -/
theorem writes_of_failed {p p' : StoredPool} {t t' : Traced σ} {request : Request} {e : Error}
    (failed : p.perform request t = ((.error e, p'), t')) : request ≠ .fill 0 := by
  rintro rfl
  cases failed

/-- A request for something draws in memory, and then writes. -/
theorem run_fill (p : StoredPool) {n : Nat} (positive : 0 < n) (t : Traced σ) :
    p.fill n t =
      ((⟨(p.state.take n).1,
          match (p.update (p.state.take n).2 t).1.1 with
          | .ok () => none
          | .error e => some e⟩,
        (p.update (p.state.take n).2 t).1.2), (p.update (p.state.take n).2 t).2) := by
  rw [fill, if_neg (Nat.ne_of_gt positive)]
  change (p.update (p.state.take n).2 >>= _) t = _
  rw [Action.run_bind]
  rcases p.update (p.state.take n).2 t with ⟨⟨result, q⟩, t'⟩
  cases result with
  | ok u => rfl
  | error e => rfl

/-- Every other request is one change in memory and one write. -/
theorem perform_eq_update (p : StoredPool) {request : Request} (writes : request ≠ .fill 0)
    (t : Traced σ) : p.perform request t = p.update (request.change p.state) t := by
  cases request with
  | stir material => rfl
  | fill n =>
      have positive : 0 < n :=
        Nat.pos_of_ne_zero fun zero => writes (congrArg Request.fill zero)
      rw [perform, Action.run_bind, run_fill p positive, Request.change]
      rcases p.update (p.state.take n).2 t with ⟨⟨result, q⟩, t'⟩
      cases result with
      | ok u => rfl
      | error e => rfl

/-! ## Writing -/

/-- The file is replaced as a whole, or it was not touched. -/
theorem persist_cases (faithful : Machine.Faithful σ) (p : StoredPool) (t : Traced σ) :
    (∃ t', p.persist.toAction t = (.ok (), t') ∧
      Machine.readFile p.path t'.world = .ok p.content) ∨
    ∃ fault t', p.persist.toAction t = (.error (.io fault), t') ∧
      Machine.readFile p.path t'.world = Machine.readFile p.path t.world := by
  rw [persist, Attempt.run_bind, Machine.run_persist]
  cases written : (Machine.replaceFile p.path p.content t.world).1 with
  | ok u => exact .inl ⟨_, rfl, faithful.replaced _ _ _ written⟩
  | error fault => exact .inr ⟨fault, _, rfl, faithful.refused _ _ _ _ written⟩

/-- Memory changes, and the file follows or stays. -/
theorem update_cases (faithful : Machine.Faithful σ) (p : StoredPool) (next : State)
    (t : Traced σ) :
    (∃ t', p.update next t = ((.ok (), { p with state := next }), t') ∧
      Machine.readFile p.path t'.world = .ok { p with state := next }.content) ∨
    ∃ fault t', p.update next t = ((.error (.io fault), { p with state := next }), t') ∧
      Machine.readFile p.path t'.world = Machine.readFile p.path t.world := by
  have run : p.update next t =
      ((({ p with state := next }.persist.toAction t).1, { p with state := next }),
        ({ p with state := next }.persist.toAction t).2) := rfl
  obtain ⟨t', persisted, read⟩ | ⟨fault, t', persisted, read⟩ :=
    persist_cases faithful { p with state := next } t
  · exact .inl ⟨t', by rw [run, persisted], read⟩
  · exact .inr ⟨fault, t', by rw [run, persisted], read⟩

/-- Stirring without keeping the pool where the write fails. -/
theorem stirred_cases (faithful : Machine.Faithful σ) (p : StoredPool) (material : Bytes)
    (t : Traced σ) :
    (∃ t', (p.stirred material).toAction t =
        (.ok { p with state := p.state.stir material }, t') ∧
      Machine.readFile p.path t'.world =
        .ok { p with state := p.state.stir material }.content) ∨
    ∃ fault t', (p.stirred material).toAction t = (.error (.io fault), t') ∧
      Machine.readFile p.path t'.world = Machine.readFile p.path t.world := by
  have run : (p.stirred material).toAction t =
      ((p.update (p.state.stir material) t).1.1.map
        fun _ => (p.update (p.state.stir material) t).1.2,
        (p.update (p.state.stir material) t).2) := rfl
  obtain ⟨t', updated, read⟩ | ⟨fault, t', updated, read⟩ :=
    update_cases faithful p (p.state.stir material) t
  · exact .inl ⟨t', by rw [run, updated]; rfl, read⟩
  · exact .inr ⟨fault, t', by rw [run, updated]; rfl, read⟩

/-! ## Making and opening -/

/-- A pool that is all in its file. -/
structure Settled (p : StoredPool) (world : σ) : Prop where
  valid : p.state.Valid
  read : Machine.readFile p.path world = .ok p.content

theorem Settled.holds {p : StoredPool} {world : σ} (settled : p.Settled world) :
    Holds p.path p.key world p.state :=
  ⟨p.content, settled.read, Pool.opens_iff.mpr ⟨settled.valid, rfl⟩⟩

/-- A pool that was made is in its file. -/
theorem settled_of_create (faithful : Machine.Faithful σ) {path : String} {p : StoredPool}
    {t t' : Traced σ} (made : (create path).toAction t = (.ok p, t')) :
    p.Settled t'.world := by
  obtain ⟨absolute, t₁, -, made⟩ := Attempt.run_bind_eq_ok_iff.mp made
  obtain ⟨bytes, t₂, drawn, made⟩ := Attempt.run_bind_eq_ok_iff.mp made
  obtain ⟨key, t₃, -, made⟩ := Attempt.run_bind_eq_ok_iff.mp made
  obtain ⟨u, t₄, persisted, made⟩ := Attempt.run_bind_eq_ok_iff.mp made
  have size : bytes.length = Pool.poolSize :=
    faithful.random_size _ _ _ (Machine.run_randomFor_eq_ok_iff.mp drawn).1
  obtain ⟨t₅, wrote, read⟩ | ⟨fault, t₅, failed, -⟩ :=
    persist_cases faithful ⟨absolute, key, ⟨0, bytes⟩⟩ t₃
  · rw [wrote] at persisted
    cases persisted
    cases made
    exact ⟨⟨size, Nat.zero_lt_succ _, Nat.dvd_zero _⟩, read⟩
  · rw [failed] at persisted
    cases persisted

/-- What is left of opening a file once its record was read. -/
def refresh (p : StoredPool) : Attempt σ StoredPool := do
  let fresh ← Machine.randomFor name freshSize
  let now ← Attempt.always (Action.step Machine.now)
  let p ← p.stirred fresh
  p.stirred (Bytes.toLe clockWidth now)

/-- Opening a file that can be read depends on its record alone.  A refusal is
logged, and nothing else happens. -/
theorem load_of_read {path absolute : String} {content : Bytes} {t : Traced σ}
    (resolved : Machine.absolute path t.world = .ok absolute)
    (read : Machine.readFile absolute t.world = .ok content) :
    (load path).toAction t =
      match Pool.decode (Pool.mask (keyFor absolute t).1 content) with
      | .error fault => (.error (.corruptPool fault),
          { t with events := t.events ++ [.poolRejected absolute (.corruptPool fault)] })
      | .ok s => (refresh ⟨absolute, (keyFor absolute t).1, s⟩).toAction t := by
  have resolving : (Machine.resolve path).toAction t = (.ok absolute, t) :=
    Machine.run_resolve_eq_ok_iff.mpr ⟨resolved, rfl⟩
  have loading : (Machine.load absolute).toAction t = (.ok content, t) :=
    Machine.run_load_eq_ok_iff.mpr ⟨read, rfl⟩
  rw [load, Attempt.run_bind_ok resolving, Attempt.run_bind_ok (Attempt.run_always _ t)]
  change (Machine.load absolute >>= _).toAction t = _
  rw [Attempt.run_bind_ok loading]
  cases Pool.decode (Pool.mask (keyFor absolute t).1 content) with
  | error fault => rfl
  | ok s => rfl

/-- A file that holds a pool is opened to that pool, stirred. -/
theorem load_of_holds {path absolute : String} {s : State} {t : Traced σ}
    (resolved : Machine.absolute path t.world = .ok absolute)
    (holds : Holds absolute (keyFor absolute t).1 t.world s) :
    (load path).toAction t =
      (refresh ⟨absolute, (keyFor absolute t).1, s⟩).toAction t := by
  obtain ⟨content, read, opened⟩ := holds
  rw [load_of_read resolved read, opened]

/-- A pool is opened only from a file that holds one. -/
theorem exists_refresh_of_load {path : String} {p : StoredPool} {t t' : Traced σ}
    (opened : (load path).toAction t = (.ok p, t')) :
    ∃ q : StoredPool, Holds q.path q.key t.world q.state ∧
      (refresh q).toAction t = (.ok p, t') := by
  obtain ⟨absolute, t₁, resolving, keying⟩ := Attempt.run_bind_eq_ok_iff.mp opened
  obtain ⟨key, t₂, keyed, reading⟩ := Attempt.run_bind_eq_ok_iff.mp keying
  obtain ⟨content, t₃, loading, finish⟩ := Attempt.run_bind_eq_ok_iff.mp reading
  obtain ⟨-, rfl⟩ := Machine.run_resolve_eq_ok_iff.mp resolving
  obtain rfl : t₂ = t₁ := (congrArg Prod.snd keyed).symm
  obtain ⟨read, rfl⟩ := Machine.run_load_eq_ok_iff.mp loading
  cases decoded : Pool.decode (Pool.mask key content) with
  | error fault =>
      rw [decoded] at finish
      cases finish
  | ok s =>
      rw [decoded] at finish
      exact ⟨⟨absolute, key, s⟩, ⟨content, read, decoded⟩, finish⟩

/-- How opening a file ends that holds a pool: the file still opens, it was not
refused for what is in it, and a pool that was opened is all in its file. -/
structure Refreshed (p : StoredPool) (result : Except Error StoredPool) (world : σ) : Prop where
  opens : ∃ s, Holds p.path p.key world s
  accepted : ∀ fault, result ≠ .error (.corruptPool fault)
  settled : ∀ q, result = .ok q → q.Settled world

/-- Either of two stirrings can be the one that is not written. -/
theorem refreshed_of_stirred (faithful : Machine.Faithful σ) {p : StoredPool}
    {t t' : Traced σ} {result : Except Error StoredPool}
    (holds : Holds p.path p.key t.world p.state) {first second : Bytes}
    (ran : (p.stirred first >>= fun q => q.stirred second).toAction t = (result, t')) :
    Refreshed p result t'.world := by
  have valid : (p.state.stir first).Valid := holds.valid.stir first
  obtain ⟨t₁, wrote, read⟩ | ⟨fault, t₁, failed, same⟩ := stirred_cases faithful p first t
  case inr =>
    rw [Attempt.run_bind_error failed] at ran
    cases ran
    exact ⟨⟨p.state, holds.untouched same⟩, nofun, nofun⟩
  let q : StoredPool := { p with state := p.state.stir first }
  have between : q.Settled t₁.world := ⟨valid, read⟩
  rw [Attempt.run_bind_ok wrote] at ran
  obtain ⟨t₂, wrote, read⟩ | ⟨fault, t₂, failed, same⟩ := stirred_cases faithful q second t₁
  · cases wrote.symm.trans ran
    have settled : Settled { q with state := q.state.stir second } t'.world :=
      ⟨valid.stir second, read⟩
    refine ⟨⟨_, settled.holds⟩, nofun, ?_⟩
    rintro _ ⟨⟩
    exact settled
  · cases failed.symm.trans ran
    exact ⟨⟨q.state, between.holds.untouched same⟩, nofun, nofun⟩

/-- Random bytes and the time are drawn without touching the file. -/
theorem refreshed_of_refresh (faithful : Machine.Faithful σ) {p : StoredPool}
    {t t' : Traced σ} {result : Except Error StoredPool}
    (holds : Holds p.path p.key t.world p.state)
    (ran : (refresh p).toAction t = (result, t')) : Refreshed p result t'.world := by
  rw [refresh] at ran
  cases given : (Machine.random freshSize t.world).1 with
  | error reason =>
      have refused : (Machine.randomFor name freshSize).toAction t =
          (.error (.sourceFailed name reason),
            { t with world := (Machine.random freshSize t.world).2 }) := by
        change ((Machine.random freshSize t.world).1.mapError _, _) = _
        rw [given]
        rfl
      rw [Attempt.run_bind_error refused] at ran
      cases ran
      exact ⟨⟨p.state, holds.untouched (faithful.random_files _ _ _)⟩, nofun, nofun⟩
  | ok fresh =>
      have drawn : (Machine.randomFor name freshSize).toAction t = (.ok fresh, _) :=
        Machine.run_randomFor_eq_ok_iff.mpr ⟨given, rfl⟩
      rw [Attempt.run_bind_ok drawn, Attempt.run_bind_ok (Attempt.run_always _ _)] at ran
      refine refreshed_of_stirred faithful (holds.untouched ?_) ran
      exact (faithful.now_files _ _).trans (faithful.random_files _ _ _)

/-! ## Runs -/

/-- A pool that was made or opened and has met requests since, each with the world
by then and the pool as it was written last. -/
inductive Reached : StoredPool → Traced σ → State → Prop where
  | made {path : String} {p : StoredPool} {t t' : Traced σ} :
      (create path).toAction t = (.ok p, t') → Reached p t' p.state
  | opened {path : String} {p : StoredPool} {t t' : Traced σ} :
      (load path).toAction t = (.ok p, t') → Reached p t' p.state
  /-- A request that was written. -/
  | wrote {p p' : StoredPool} {t t' : Traced σ} {last : State} {request : Request} :
      Reached p t last → request ≠ .fill 0 →
      p.perform request t = ((.ok (), p'), t') → Reached p' t' p'.state
  /-- A request for nothing. -/
  | idled {p p' : StoredPool} {t t' : Traced σ} {last : State} :
      Reached p t last → p.perform (.fill 0) t = ((.ok (), p'), t') → Reached p' t' last
  /-- A request that failed. -/
  | failed {p p' : StoredPool} {t t' : Traced σ} {last : State} {request : Request}
      {e : Error} :
      Reached p t last → p.perform request t = ((.error e, p'), t') → Reached p' t' last
  /-- The world went on, and nobody touched the file. -/
  | elsewhere {p : StoredPool} {t t' : Traced σ} {last : State} :
      Reached p t last →
      Machine.readFile p.path t'.world = Machine.readFile p.path t.world → Reached p t' last

/-- What every request keeps of a pool, given the pool as it was written last. -/
structure Consistent (p : StoredPool) (world : σ) (last : State) : Prop where
  valid : p.state.Valid
  holds : Holds p.path p.key world last

theorem Settled.consistent {p : StoredPool} {world : σ} (settled : p.Settled world) :
    p.Consistent world p.state :=
  ⟨settled.valid, settled.holds⟩

/-- What a request does that can be written. -/
theorem Consistent.perform_cases (faithful : Machine.Faithful σ) {p p' : StoredPool}
    {t t' : Traced σ} {last : State} (consistent : p.Consistent t.world last)
    {request : Request} (writes : request ≠ .fill 0) {result : Except Error Unit}
    (performed : p.perform request t = ((result, p'), t')) :
    p'.path = p.path ∧ p'.key = p.key ∧
      ((result = .ok () ∧ p'.Settled t'.world) ∨
        ∃ e, result = .error e ∧ p'.Consistent t'.world last ∧
          Machine.readFile p.path t'.world = Machine.readFile p.path t.world) := by
  have valid : (request.change p.state).Valid := Request.valid_change consistent.valid request
  rw [perform_eq_update p writes] at performed
  obtain ⟨_, updated, read⟩ | ⟨fault, _, updated, same⟩ :=
    update_cases faithful p (request.change p.state) t
  · cases updated.symm.trans performed
    exact ⟨rfl, rfl, .inl ⟨rfl, valid, read⟩⟩
  · cases updated.symm.trans performed
    exact ⟨rfl, rfl, .inr ⟨_, rfl, ⟨valid, consistent.holds.untouched same⟩, same⟩⟩

/-- Memory and file belong together in every run. -/
theorem Reached.consistent (faithful : Machine.Faithful σ) {p : StoredPool} {t : Traced σ}
    {last : State} (reached : Reached p t last) : p.Consistent t.world last := by
  -- A run starts all in its file, and only a request for something changes memory or file.
  induction reached with
  | made made => exact (settled_of_create faithful made).consistent
  | opened opened =>
      obtain ⟨q, holds, ran⟩ := exists_refresh_of_load opened
      exact ((refreshed_of_refresh faithful holds ran).settled _ rfl).consistent
  | wrote _ writes performed ih =>
      obtain ⟨-, -, ⟨-, settled⟩ | ⟨e, failed, -⟩⟩ := ih.perform_cases faithful writes performed
      · exact settled.consistent
      · cases failed
  | idled _ performed ih =>
      cases performed
      exact ih
  | failed _ performed ih =>
      obtain ⟨-, -, ⟨succeeded, -⟩ | ⟨_, -, kept, -⟩⟩ :=
        ih.perform_cases faithful (writes_of_failed performed) performed
      · cases succeeded
      · exact kept
  | elsewhere _ same ih => exact ⟨ih.valid, ih.holds.untouched same⟩

/-- A run goes on with every request, however it ends: the pool as it was written
last is the one before or the one in memory. -/
theorem Reached.exists_performed {p : StoredPool} {t : Traced σ} {last : State}
    (reached : Reached p t last) (request : Request) :
    ∃ last', Reached (p.perform request t).1.2 (p.perform request t).2 last' ∧
      (last' = last ∨ last' = (p.perform request t).1.2.state) := by
  rcases performed : p.perform request t with ⟨⟨result, p'⟩, t'⟩
  cases result with
  | error e => exact ⟨last, .failed reached performed, .inl rfl⟩
  | ok u =>
      by_cases nothing : request = .fill 0
      · subst nothing
        exact ⟨last, .idled reached performed, .inl rfl⟩
      · exact ⟨p'.state, .wrote reached nothing performed, .inr rfl⟩

/-- Perform requests in turn, each whatever became of those before it. -/
def performAll (p : StoredPool) : List Request → Action σ StoredPool
  | [] => pure p
  | request :: later => do
      let (_, p) ← p.perform request
      p.performAll later

/-- A run goes on with any requests.  The pool as it was written last is the one
before all of them, or the one in memory once the first few of them were performed. -/
theorem Reached.exists_performAll (requests : List Request) {p : StoredPool} {t : Traced σ}
    {last : State} (reached : Reached p t last) :
    ∃ last', Reached (p.performAll requests t).1 (p.performAll requests t).2 last' ∧
      (last' = last ∨ ∃ done, done <+: requests ∧ last' = (p.performAll done t).1.state) := by
  induction requests generalizing p t last with
  | nil => exact ⟨last, reached, .inl rfl⟩
  | cons request later ih =>
      obtain ⟨between, performed, written⟩ := reached.exists_performed request
      obtain ⟨last', reached', rfl | ⟨done, first, rfl⟩⟩ := ih performed
      · rcases written with rfl | rfl
        · exact ⟨_, reached', .inl rfl⟩
        · exact ⟨_, reached', .inr ⟨[request], List.prefix_append [request] later, rfl⟩⟩
      · exact ⟨_, reached', .inr
          ⟨request :: done, (List.prefix_cons_inj request).mpr first, rfl⟩⟩

/-- A pool that was opened or made, whichever was needed, is reached. -/
theorem reached_of_openOrCreate {path : String} {p : StoredPool} {t t' : Traced σ}
    (started : (openOrCreate path).toAction t = (.ok p, t')) : Reached p t' p.state := by
  obtain ⟨present, t₁, looked, started⟩ := Attempt.run_bind_eq_ok_iff.mp started
  cases present with
  | true => exact .opened started
  | false => exact .made started

/-- Whatever is asked of a pool that was opened or made, and whichever requests
fail, its file opens to a pool that memory held: the one after the first few requests. -/
theorem consistent_of_requests (faithful : Machine.Faithful σ) {path : String}
    {p : StoredPool} {t t' : Traced σ}
    (started : (openOrCreate path).toAction t = (.ok p, t')) (requests : List Request) :
    ∃ done, done <+: requests ∧
      (p.performAll requests t').1.Consistent (p.performAll requests t').2.world
        (p.performAll done t').1.state := by
  obtain ⟨last, reached, rfl | ⟨done, first, rfl⟩⟩ :=
    (reached_of_openOrCreate started).exists_performAll requests
  · exact ⟨[], List.nil_prefix, reached.consistent faithful⟩
  · exact ⟨done, first, reached.consistent faithful⟩

/-- At every point of every run, memory is a pool of whole windows, so no window
that is drawn or stirred runs over its end, and the file opens under the pool's
key to the pool as it was written last.  A request for something that succeeds
leaves in the file the record of the pool in memory; a request that fails leaves
the file as it was.  Whoever opens the file again under that key is not refused
for what is in it, and leaves a file that opens, too. -/
theorem file_keeps_last_written (faithful : Machine.Faithful σ) {p : StoredPool} {t : Traced σ}
    {last : State} (reached : Reached p t last) :
    (p.state.bytes.length = 3072 ∧ p.state.position < 3072 ∧ 32 ∣ p.state.position) ∧
    (∀ k, State.drawWithin k p.state = some (State.draw k p.state)) ∧
    (∀ window ∈ Bytes.blocks Pool.blockSize p.state.bytes, window.length = Pool.blockSize) ∧
    Holds p.path p.key t.world last ∧
    (∀ request p' t', request ≠ .fill 0 → p.perform request t = ((.ok (), p'), t') →
      Machine.readFile p.path t'.world = .ok p'.content ∧
        Holds p.path p.key t'.world p'.state) ∧
    (∀ request e p' t', p.perform request t = ((.error e, p'), t') →
      Machine.readFile p.path t'.world = Machine.readFile p.path t.world ∧
        Holds p.path p.key t'.world last) ∧
    ∀ (path : String) (t' t'' : Traced σ) (result : Except Error StoredPool),
      Machine.readFile p.path t'.world = Machine.readFile p.path t.world →
      Machine.absolute path t'.world = .ok p.path → (keyFor p.path t').1 = p.key →
      (load path).toAction t' = (result, t'') →
        (∀ fault, result ≠ .error (.corruptPool fault)) ∧
          ∃ s, Holds p.path p.key t''.world s := by
  have consistent : p.Consistent t.world last := reached.consistent faithful
  have valid := consistent.valid
  refine ⟨⟨valid.size, valid.inside, valid.aligned⟩, State.drawWithin_eq valid,
    fun _ => valid.length_window, consistent.holds, ?_, ?_, ?_⟩
  · intro request p' t' writes performed
    obtain ⟨path, key, ⟨-, settled⟩ | ⟨_, failed, -⟩⟩ :=
      consistent.perform_cases faithful writes performed
    · rw [← path, ← key]
      exact ⟨settled.read, settled.holds⟩
    · cases failed
  · intro request e p' t' performed
    obtain ⟨-, -, ⟨succeeded, -⟩ | ⟨_, -, -, same⟩⟩ :=
      consistent.perform_cases faithful (writes_of_failed performed) performed
    · cases succeeded
    · exact ⟨same, consistent.holds.untouched same⟩
  · intro path t' t'' result same resolved key loaded
    have holds : Holds p.path (keyFor p.path t').1 t'.world last := by
      rw [key]
      exact consistent.holds.untouched same
    rw [load_of_holds resolved holds] at loaded
    have refreshed := refreshed_of_refresh faithful holds loaded
    rw [← key]
    exact ⟨refreshed.accepted, refreshed.opens⟩

/-! ## A shelf that refuses -/

/-- A machine with one file, whatever its path, and the writes to come that it
refuses. -/
structure Shelf where
  file : Except IoFault Bytes
  refuses : List Bool

namespace Shelf

/-- Replace the file, or refuse to. -/
def replace (content : Bytes) : Shelf → Except IoFault Unit × Shelf
  | ⟨file, true :: later⟩ => (.error .busy, ⟨file, later⟩)
  | ⟨_, false :: later⟩ => (.ok (), ⟨.ok content, later⟩)
  | ⟨_, []⟩ => (.ok (), ⟨.ok content, []⟩)

instance : Machine Shelf where
  random n shelf := (.ok (Bytes.zeros n), shelf)
  durations n shelf := (List.replicate n 0, shelf)
  now shelf := (0, shelf)
  user _ := ⟨"veil", "/"⟩
  absolute path _ := .ok path
  contains _ shelf := shelf.file.isOk
  readFile _ shelf := shelf.file
  replaceFile _ := replace
  writeFile _ := replace

theorem faithful : Machine.Faithful Shelf where
  random_size n _ bytes given := by
    cases given
    exact Bytes.length_zeros n
  random_files _ _ _ := rfl
  now_files _ _ := rfl
  replaced _ content shelf succeeded := by
    change (replace content shelf).1 = _ at succeeded
    change (replace content shelf).2.file = _
    fun_cases replace content shelf with
    | case1 => cases succeeded
    | case2 => rfl
    | case3 => rfl
  refused _ content shelf fault failed := by
    change (replace content shelf).1 = _ at failed
    change (replace content shelf).2.file = _
    fun_cases replace content shelf with
    | case1 => rfl
    | case2 => cases failed
    | case3 => cases failed

end Shelf

/-- A pool is made, a stirring is refused, and a draw of two blocks is written.
After the refusal the file still opens to the pool as it was made, although
memory has moved on; after the draw it opens to the pool in memory. -/
theorem file_keeps_last_written_refused : ∃ (p q r : StoredPool) (t₀ t₁ t₂ t₃ : Traced Shelf),
    (create "/pool").toAction t₀ = (.ok p, t₁) ∧
    p.perform (.stir [1]) t₁ = ((.error (.io .busy), q), t₂) ∧
    q.perform (.fill 40) t₂ = ((.ok (), r), t₃) ∧
    Reached r t₃ r.state ∧ Machine.Faithful Shelf ∧
    Holds q.path q.key t₂.world p.state ∧ Holds r.path r.key t₃.world r.state := by
  let t₀ : Traced Shelf := ⟨⟨.error .notFound, [false, true]⟩, []⟩
  let p : StoredPool := ⟨"/pool", Pool.userKey "veil" "/" "/pool", 0, Bytes.zeros Pool.poolSize⟩
  let q : StoredPool := { p with state := p.state.stir [1] }
  let r : StoredPool := { q with state := (q.state.take 40).2 }
  let t₁ : Traced Shelf := ⟨⟨.ok p.content, [true]⟩, [.poolPersisted "/pool" 0, .poolCreated "/pool"]⟩
  let t₂ : Traced Shelf := { t₁ with world := ⟨.ok p.content, []⟩ }
  let t₃ : Traced Shelf :=
    ⟨⟨.ok r.content, []⟩, t₂.events ++ [.poolPersisted "/pool" r.state.position]⟩
  have made : (create "/pool").toAction t₀ = (.ok p, t₁) := rfl
  have refused : p.perform (.stir [1]) t₁ = ((.error (.io .busy), q), t₂) := rfl
  have writes : Request.fill 40 ≠ .fill 0 := by simp
  have drawn : q.perform (.fill 40) t₂ = ((.ok (), r), t₃) := by
    rw [perform_eq_update q writes]
    rfl
  have reached : Reached r t₃ r.state := .wrote (.failed (.made made) refused) writes drawn
  obtain ⟨-, -, -, -, -, afterRefusal, -⟩ :=
    file_keeps_last_written Shelf.faithful (.made made)
  obtain ⟨-, -, -, holds, -⟩ := file_keeps_last_written Shelf.faithful reached
  exact ⟨p, q, r, t₀, t₁, t₂, t₃, made, refused, drawn, reached, Shelf.faithful,
    (afterRefusal _ _ _ _ refused).2, holds⟩

end EntropySeal.StoredPool
