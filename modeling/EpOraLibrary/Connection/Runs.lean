import EpOraLibrary.Connection.Closing

/-!
# EpOraLibrary — runs of `Open` and `Close`

A `Connection` from its constructor on, driven by any sequence of `Open` and
`Close` calls, each with its own outcomes of the calls to OCI. `Open` is not
called on an opened object, as it asserts.

* `exec_close` — what a whole `Close` does.
* `ConnRun.step_handlesOk` — both calls keep the handles in order.
* `handlesOk_run` — so does every run.
* `no_freed_handle_passed` — **no call is handed a freed handle**, the
  destructor's `Close` included, in the runs in which no `Close` strands the
  service context.
* `stranded_handle_freed_twice` — a run in which one does.
-/

namespace Epol

open Ledger Prog Runs

variable {c : Bool} {tidy keep : Prop} {w : World}

-- ---------------------------------------------------------------------------
-- The runs
-- ---------------------------------------------------------------------------

/-- A new world: one `Connection`, nothing allocated. -/
def World.start (cfg : Setting) : World := { cfg := cfg, outcome := fun _ => .success }

/-- The world in which the next API call gets the answers `o`. -/
def World.answering (w : World) (o : OciCall → OciResult) : World := { w with outcome := o }

inductive ConnCall
  | open (args : OpenArgs) (o : OciCall → OciResult)
  | close (o : OciCall → OciResult)

/-- This `Close` gets through to its end. -/
def World.completes (w : World) : Bool :=
  match Connection.releaseHandles w with
  | .ok r _ => r = .success
  | .error _ _ => false

/-- A connection together with what its caller knows: the `nonBlockingMode` of
the last successful `Open`, and the number from which on handles were allocated
after the last `Close` that got through. -/
structure ConnRun where
  w     : World
  mode  : Bool
  since : Nat

def ConnRun.start (cfg : Setting) : ConnRun := ⟨.start cfg, false, 0⟩

def ConnRun.step (s : ConnRun) : ConnCall → ConnRun
  | .open args o =>
    if s.w.conn.m_isOpened then s
    else match Connection.openWith args (s.w.answering o) with
      | .ok _ w => { s with w := w, mode := args.nonBlockingMode }
      | .error _ w => { s with w := w }
  | .close o =>
    let w := exec Connection.close (s.w.answering o)
    { s with w := w, since := if (s.w.answering o).completes then w.fresh else s.since }

/-- The name in capitals and without its colon. -/
def foldPlaceholder (name : TString) : TString :=
  (if name.head? = some ':'.toNat then name.tail else name).map fun c =>
    if 'a'.toNat ≤ c ∧ c ≤ 'z'.toNat then c - 32 else c

/-- Surroundings for runs on fixed inputs. -/
def Setting.plain : Setting where
  unicode := true
  answers _ := default
  stmtTypeOf _ := .unknown
  placeholder := foldPlaceholder
  numberToReal _ := .error .error
  numberToInt _ := .error .error
  numberFromReal _ := .error .error
  numberFromInt _ := .error .error
  zeroNumber := [128]
  sysDate := default
  pointerSize := 8

/-- Surroundings in which every execution opens a cursor on `q`. -/
def Setting.serving (q : Query) : Setting := { Setting.plain with answers := fun _ => q }

/-- The answers of OCI when no call fails. -/
def allWell (_ : OciCall) : OciResult := .success

/-- All calls succeed but those that meet `bad`. -/
def failing (bad : OciCall → Bool) (call : OciCall) : OciResult :=
  if bad call then .error else .success

-- ---------------------------------------------------------------------------
-- One call
-- ---------------------------------------------------------------------------

/-- What a whole `Close` does: the flags are reset when it got through. -/
theorem exec_close (h : HandlesOk c tidy w.conn w.fresh w.trace)
    (hKeep : keep → (∀ v, w.conn.m_svcContextHandle = some v → ¬ Gone c w.trace ⟨.svcctx, v⟩) ∧
      ¬ w.Strands) :
    ∃ r w₁, Connection.releaseHandles w = .ok r w₁ ∧ Closed w r w₁ ∧
      HandlesOk c (keep ∧ tidy) w₁.conn w₁.fresh w₁.trace ∧ (tidy → Safe c w₁.trace) ∧
      (r = .success → ∀ k, (k = .svcctx → keep) → w₁.conn.handle k = none) ∧
      exec Connection.close w = if r = .success then
          { w₁ with conn := { w₁.conn with m_isOpened := false, m_isBlocking := false } }
        else w₁ := by
  have hRun := wp_releaseHandles (E := fun _ _ => False) h hKeep
  cases hr : Connection.releaseHandles w with
  | error e w₁ => exact (of_wp_error hRun hr).elim
  | ok r w₁ =>
    obtain ⟨⟨hOk, hNone⟩, hSafe, hClosed⟩ := of_wp_ok hRun hr
    refine ⟨r, w₁, rfl, hClosed, hOk, hSafe, hNone, ?_⟩
    rw [Connection.close, exec_bind hr]
    split
    · rfl
    · rfl

theorem handlesOk_start (cfg : Setting) :
    HandlesOk c tidy (World.start cfg).conn (World.start cfg).fresh (World.start cfg).trace where
  acquired hm := absurd hm (List.not_mem_nil)
  parent hm := absurd hm (List.not_mem_nil)
  released hm := absurd hm released_nil
  owned {k _} hh := by cases k <;> cases hh
  order {k} hh := by cases k <;> cases hh
  live _ _ := gone_nil
  safe _ := trivial

/-- **`Close`** keeps the handles in order, and tidy unless it strands the
service context; where they are tidy it passes no freed handle. -/
theorem handlesOk_close (h : HandlesOk c tidy w.conn w.fresh w.trace) :
    HandlesOk c (tidy ∧ ¬ w.Strands) (exec Connection.close w).conn
        (exec Connection.close w).fresh (exec Connection.close w).trace ∧
      (tidy → Safe c (exec Connection.close w).trace) := by
  have hKeep : tidy ∧ ¬ w.Strands → (∀ v, w.conn.m_svcContextHandle = some v →
      ¬ Gone c w.trace ⟨.svcctx, v⟩) ∧ ¬ w.Strands := fun ht =>
    ⟨fun v hv => h.live (k := .svcctx) hv fun _ => .inl ht.1, ht.2⟩
  obtain ⟨r, w₁, -, -, hOk, hSafe, -, hClose⟩ := exec_close h hKeep
  rw [hClose]
  split
  · exact ⟨(hOk.imp fun ht => ⟨ht, ht.1⟩).flags fun k => by cases k <;> rfl, hSafe⟩
  · exact ⟨hOk.imp fun ht => ⟨ht, ht.1⟩, hSafe⟩

/-- Both calls keep the handles in order, and tidy where no `Close` strands
the service context. -/
theorem ConnRun.step_handlesOk (s : ConnRun) (l : ConnCall)
    (h : HandlesOk c tidy s.w.conn s.w.fresh s.w.trace)
    (hTidy : tidy → ∀ o, l = .close o → ¬ (s.w.answering o).Strands) :
    HandlesOk c tidy (s.step l).w.conn (s.step l).w.fresh (s.step l).w.trace := by
  cases l with
  | «open» args o =>
    rw [ConnRun.step]
    split
    · exact h
    · have hOpen := wp_openWith (w := s.w.answering o) h args
      split
      · rename_i hRun
        exact (of_wp_ok hOpen hRun).ok
      · rename_i hRun
        exact (of_wp_error hOpen hRun).ok
  | close o =>
    exact (handlesOk_close (w := s.w.answering o) h).1.imp fun ht => ⟨ht, hTidy ht o rfl⟩

/-- Every reachable state has its handles in order. -/
theorem handlesOk_run (cfg : Setting) (calls : List ConnCall) :
    let s := run ConnRun.step (ConnRun.start cfg) calls
    HandlesOk c False s.w.conn s.w.fresh s.w.trace :=
  run_invariant (I := fun s : ConnRun => HandlesOk c False s.w.conn s.w.fresh s.w.trace)
    (fun s l h => s.step_handlesOk l h fun hFalse => hFalse.elim) (handlesOk_start cfg) calls

-- ---------------------------------------------------------------------------
-- No call is handed a freed handle
-- ---------------------------------------------------------------------------

/-- A call of a run that leaves no freed service context behind. -/
def ConnRun.NotStranding (s : ConnRun) (l : ConnCall) : Prop :=
  ∀ o, l = .close o → ¬ (s.w.answering o).Strands

/-- **No call is handed a freed handle.** In a run of `Open` and `Close`
followed by the destructor, whatever the outcomes of the calls to OCI, none of
them receives a handle that was freed before (under either reading of a free
of the environment), provided that no `Close` of the run strands the service
context. -/
theorem no_freed_handle_passed (cfg : Setting) (calls : List ConnCall)
    (o : OciCall → OciResult)
    (hCalls : AllSteps ConnRun.step ConnRun.NotStranding (ConnRun.start cfg) calls) :
    Safe c ((run ConnRun.step (ConnRun.start cfg) calls).step (.close o)).w.trace := by
  have h : HandlesOk c True _ _ _ := run_invariant_of_allSteps
    (I := fun s : ConnRun => HandlesOk c True s.w.conn s.w.fresh s.w.trace)
    (fun s l h hl => s.step_handlesOk l h fun _ => hl) (handlesOk_start cfg) hCalls
  exact (handlesOk_close (w := World.answering _ o) h).2 trivial

/-- A refused login, a `Close` that gets nowhere, and the destructor. -/
theorem no_freed_handle_passed_refused_login :
    Safe true ((run ConnRun.step (ConnRun.start .plain)
      [.open ⟨true, true, false⟩ (failing (· = .sessionBegin)),
        .close (failing (· = .sessionEnd))]).step (.close (failing fun _ => false))).w.trace :=
  no_freed_handle_passed .plain _ _
    ⟨fun _ ho => (nomatch ho), fun _ ho => by cases ho; decide, trivial⟩

/-- `Open` that fails to allocate the session handle, then `Close`: the service
context is freed and its field kept. -/
def strandingRun : List ConnCall :=
  [.open ⟨true, true, false⟩ (failing (· = .handleAlloc .session)), .close (failing fun _ => false)]

/-- The destructor frees the stranded service context a second time. -/
theorem stranded_handle_freed_twice :
    ¬ Safe false ((run ConnRun.step (ConnRun.start .plain) strandingRun).step
      (.close (failing fun _ => false))).w.trace := by
  decide

end Epol
