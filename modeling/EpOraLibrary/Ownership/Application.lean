import EpOraLibrary.Ownership.Start

/-!
# EpOraLibrary — an application and the objects it holds

A run of an application: any sequence of calls of `Execute`, `Prepare`,
`Select`, `Bind`, `Next` and `ReleaseObj`, each with its own answers of OCI. It
holds the objects the calls returned, calls no object it does not hold, and
releases each at most once.

* `Sound` — everything that is there is owned by one held object, once.
* `Sound.call` — each call keeps that; one that throws leaves nothing behind.
* `statement_resources_conserved` — **resources are conserved**: a call that
  throws has released all it made, and when the application holds nothing any
  more, all that was made in the run was released exactly once.
-/

namespace Epol

open Ledger Prog Runs

variable {w w₁ : World} {x y : Res} {s p : Nat} {held : List Res}

-- ---------------------------------------------------------------------------
-- Runs
-- ---------------------------------------------------------------------------

/-- The calls of an application on a connection that stays open. -/
inductive Call
  | execute (sql : TString)
  | prepare (sql : TString)
  | select (sql : TString) (fetchSize : Nat)
  | bind (s : Nat) (name : TString) (type : DataType)
  | stmtExecute (s : Nat)
  | stmtSelect (s fetchSize : Nat)
  | next (r : Nat)
  | release (x : Res)

/-- The object a call is made on. -/
def Call.object : Call → Option Res
  | .bind s _ _ => some ⟨.statement, s⟩
  | .stmtExecute s => some ⟨.statement, s⟩
  | .stmtSelect s _ => some ⟨.statement, s⟩
  | .next r => some ⟨.resultSet, r⟩
  | .release x => some x
  | _ => none

/-- What a call does, and the object it returns. A `Parameter` belongs to its
statement. -/
def Call.run : Call → M (Option Res)
  | .execute sql => do
    Connection.execute sql
    return none
  | .prepare sql => return some ⟨.statement, ← Connection.prepare sql⟩
  | .select sql fetchSize => return some ⟨.resultSet, ← Connection.selectWith sql fetchSize⟩
  | .bind s name type => do
    let _ ← Statement.bind s name type
    return none
  | .stmtExecute s => do
    Statement.executePrepared s
    return none
  | .stmtSelect s fetchSize => return some ⟨.resultSet, ← Statement.selectWith s fetchSize⟩
  | .next r => do
    let _ ← ResultSet.next r
    return none
  | .release x => do
    ReleaseObj x
    return none

/-- What is held of the objects `held` after the call. -/
def Call.keeps (held : List Res) : Call → List Res
  | .release x => held.erase x
  | _ => held

/-- The world, and the objects the application holds. -/
structure App where
  w    : World
  held : List Res

def App.start (w : World) : App := ⟨w, []⟩

/-- The application holds the object the call is made on. -/
def App.Allows (a : App) (l : Call) : Prop := ∀ x ∈ l.object, x ∈ a.held

instance (a : App) (l : Call) : Decidable (a.Allows l) :=
  inferInstanceAs (Decidable (∀ x ∈ l.object, x ∈ a.held))

/-- A call together with the answers OCI gives to it. -/
abbrev Answered := Call × (OciCall → OciResult)

def App.step (a : App) (l : Answered) : App :=
  if a.Allows l.1 then
    match l.1.run (a.w.answering l.2) with
    | .ok x w => ⟨w, x.toList ++ l.1.keeps a.held⟩
    | .error _ w => { a with w := w }
  else a

-- ---------------------------------------------------------------------------
-- The invariant
-- ---------------------------------------------------------------------------

/-- An object an application can hold, or a statement can own. -/
def Kind.isObject : Kind → Bool
  | .statement | .resultSet | .parameter => true
  | _ => false

/-- Everything that statements and result sets are made of and that is there is
owned by one of the objects `held`, once. -/
structure Sound (w : World) (held : List Res) : Prop where
  minted  : Minted w.fresh w.trace
  cursors : w.CursorsBelow w.fresh
  kinds   : ∀ x ∈ held, x.kind.isObject = true
  net     : ∀ x, x.kind.ofStatement = true →
    net w.trace x = ((held.flatMap w.owned).count x : Nat)

theorem owned_kind (hx : x.kind.isObject = true) (hy : y ∈ w.owned x) :
    y.kind.ofStatement = true := by
  have hColumns : ∀ r, y ∈ w.columnsOwned r → y.kind.ofStatement = true := fun r hy => by
    obtain ⟨c, -, rfl⟩ := List.mem_map.mp hy
    rfl
  have hHandle : ∀ h, y ∈ ptr .stmt h → y.kind.ofStatement = true := fun h hy => by
    obtain ⟨h, -, rfl⟩ := List.mem_map.mp hy
    rfl
  have hParam : ∀ p, y ∈ w.paramOwned p → y.kind.ofStatement = true := fun p hy => by
    simp only [World.paramOwned, World.cursorOwned, List.mem_append, List.mem_flatMap,
      List.mem_singleton] at hy
    rcases hy with (⟨r, -, hy | rfl⟩ | hy) | rfl
    · exact hColumns r hy
    · rfl
    · exact hHandle _ hy
    · rfl
  have hStmt : ∀ s, y ∈ w.stmtOwned s → y.kind.ofStatement = true := fun s hy => by
    simp only [World.stmtOwned, List.mem_append, List.mem_flatMap, List.mem_singleton] at hy
    rcases hy with (hy | ⟨p, -, hy⟩) | rfl
    · exact hHandle _ hy
    · exact hParam p hy
    · rfl
  obtain ⟨kind, id⟩ := x
  cases kind with
  | statement => exact hStmt id hy
  | parameter => exact hParam id hy
  | resultSet =>
    simp only [World.owned, World.rsOwned, List.mem_append, List.mem_flatMap,
      List.mem_singleton] at hy
    rcases hy with (hy | ⟨s, -, hy⟩) | rfl
    · exact hColumns id hy
    · exact hStmt s hy
    · rfl
  | _ => cases hx

/-- An object owns itself. -/
theorem mem_owned_self (w : World) (x : Res) : x ∈ w.owned x := by
  obtain ⟨kind, id⟩ := x
  cases kind <;> simp [World.owned, World.stmtOwned, World.rsOwned, World.paramOwned]

section Sound

theorem Sound.kind (h : Sound w held) (hy : y ∈ held.flatMap w.owned) :
    y.kind.ofStatement = true := by
  obtain ⟨x, hx, hy⟩ := List.mem_flatMap.mp hy
  exact owned_kind (h.kinds x hx) hy

/-- What is owned was acquired, and so has a number that was handed out. -/
theorem Sound.id_lt (h : Sound w held) (hy : y ∈ held.flatMap w.owned) : y.id < w.fresh := by
  have hNet := h.net y (h.kind hy)
  have hCount := List.count_pos_iff.mpr hy
  have hAcquired : acquired w.trace y ≠ 0 := by
    unfold Ledger.net at hNet
    omega
  by_contra hLt
  refine hAcquired (acquired_eq_zero_iff.mpr fun q hq => hLt (h.minted.acquired hq))

/-- Nothing is owned twice. -/
theorem Sound.nodup (h : Sound w held) : (held.flatMap w.owned).Nodup := by
  refine List.nodup_iff_count_le_one.mpr fun y => ?_
  by_cases hy : y ∈ held.flatMap w.owned
  · have hNet := h.net y (h.kind hy)
    have hOnce := h.minted.once y
    unfold Ledger.net at hNet
    omega
  · rw [List.count_eq_zero_of_not_mem hy]
    exact Nat.zero_le _

/-- What a held object owns is accounted for. -/
theorem Sound.net_pos (h : Sound w held) (hx : x ∈ held) (hy : y ∈ w.owned x) :
    0 < Ledger.net w.trace y := by
  have hOwned : y ∈ held.flatMap w.owned := List.mem_flatMap.mpr ⟨x, hx, hy⟩
  have hCount := List.count_pos_iff.mpr hOwned
  rw [h.net y (h.kind hOwned)]
  omega

/-- What is held besides an object owns nothing that the object owns. -/
theorem Sound.apart (h : Sound w held) {o : Res} (hx : x ∈ held) (ho : o ∈ held.erase x) :
    ∀ y ∈ w.owned x, y ∉ w.owned o := by
  intro y hyx hyo
  have hPerm : (held.flatMap w.owned).Perm (w.owned x ++ (held.erase x).flatMap w.owned) :=
    (List.perm_cons_erase hx).flatMap_right _
  have hDisjoint := (List.nodup_append.mp (hPerm.nodup_iff.mp h.nodup)).2.2
  exact hDisjoint y hyx y (List.mem_flatMap.mpr ⟨o, ho, hyo⟩) rfl

/-- **Nothing has two owners.** -/
theorem Sound.owner_unique (h : Sound w held) {o : Res} (hx : x ∈ held) (ho : o ∈ held)
    (hyx : y ∈ w.owned x) (hyo : y ∈ w.owned o) : o = x := by
  by_contra hne
  exact h.apart hx ((List.mem_erase_of_ne hne).mpr ho) y hyx hyo

/-- A call that gained nothing. -/
theorem Sound.conserve (h : Sound w held) (hC : Conserves w.fresh w w₁ []) : Sound w₁ held where
  minted := hC.minted h.minted
  cursors := (hC.cursors _ (Nat.le_refl _) h.cursors).mono hC.fresh
  kinds := h.kinds
  net x hx := by
    have hOwned : held.flatMap w₁.owned = held.flatMap w.owned :=
      List.flatMap_congr fun o ho => owned_congr fun y hy =>
        hC.linked y (h.id_lt (List.mem_flatMap.mpr ⟨o, ho, hy⟩))
    rw [hC.net, h.net x hx, hOwned]
    simp

/-- A call that made an object. -/
theorem Sound.gain (h : Sound w held) (hG : Gains w w₁ x) (hx : x.kind.isObject = true) :
    Sound w₁ (x :: held) where
  minted := hG.conserves.minted h.minted
  cursors := (hG.conserves.cursors _ (Nat.le_refl _) h.cursors).mono hG.conserves.fresh
  kinds := by
    rintro y hy
    rcases List.mem_cons.mp hy with rfl | hy
    · exact hx
    · exact h.kinds y hy
  net y hy := by
    have hOwned : held.flatMap w₁.owned = held.flatMap w.owned :=
      List.flatMap_congr fun o ho => owned_congr fun y hy =>
        hG.conserves.linked y (h.id_lt (List.mem_flatMap.mpr ⟨o, ho, hy⟩))
    rw [hG.conserves.net, h.net y hy, List.flatMap_cons, hOwned, List.count_append]
    push_cast
    omega

/-- The release of a held object leaves what the others own. -/
theorem Sound.owned_untouched (h : Sound w held) {o : Res} (hx : x ∈ held)
    (hF : Frees w w₁ (w.owned x) (w.owned x)) (ho : o ∈ held.erase x) :
    w₁.owned o = w.owned o :=
  owned_congr fun z hz => (hF.untouched z fun hzx => h.apart hx ho z hzx hz).linked

/-- The release of a held object. -/
theorem Sound.release (h : Sound w held) (hx : x ∈ held)
    (hF : Frees w w₁ (w.owned x) (w.owned x)) : Sound w₁ (held.erase x) where
  minted := hF.minted (fun y hy => h.id_lt (List.mem_flatMap.mpr ⟨x, hx, hy⟩)) h.minted
  cursors := by
    rw [show w₁.fresh = w.fresh by rw [hF.same]]
    exact hF.cursors _ h.cursors
  kinds y hy := h.kinds y (List.mem_of_mem_erase hy)
  net y hy := by
    have hPerm : (held.flatMap w.owned).Perm (w.owned x ++ (held.erase x).flatMap w.owned) :=
      (List.perm_cons_erase hx).flatMap_right _
    have hOwned : (held.erase x).flatMap w₁.owned = (held.erase x).flatMap w.owned :=
      List.flatMap_congr fun o ho => h.owned_untouched hx hF ho
    rw [hF.net, h.net y hy, hOwned, hPerm.count_eq, List.count_append]
    push_cast
    omega

/-- What a statement owns with one more parameter. -/
theorem owned_withParam (w : World) (s p : Nat) (name : TString) :
    ((w.withParam s p name).owned ⟨.statement, s⟩).Perm
      (w.owned ⟨.parameter, p⟩ ++ w.owned ⟨.statement, s⟩) := by
  have hOwned : (w.withParam s p name).owned ⟨.statement, s⟩ =
      ptr .stmt (w.stmts s).m_stmtHandle ++ ((w.stmts s).m_parameters.flatMap w.paramOwned ++
        w.paramOwned p) ++ [⟨.statement, s⟩] := by
    show World.stmtOwned _ s = _
    simp only [World.stmtOwned, World.withParam, Function.update_self, List.flatMap_append,
      List.flatMap_cons, List.flatMap_nil, List.append_nil]
    rfl
  rw [hOwned, ← List.append_assoc, List.append_assoc]
  refine (List.perm_append_comm_assoc _ _ _).trans (List.Perm.append_left _ ?_)
  exact List.Perm.refl _

/-- The other objects do not own the statement. -/
theorem Sound.owned_others {name : TString} (h : Sound w (⟨.parameter, p⟩ :: held))
    (hs : ⟨.statement, s⟩ ∈ held) (hx : x ∈ held.erase ⟨.statement, s⟩) :
    (w.withParam s p name).owned x = w.owned x := by
  have hNodup := h.nodup
  have hErase := (List.perm_cons_erase hs).flatMap_right w.owned
  rw [List.flatMap_cons] at hNodup hErase
  have hDisjoint := (List.nodup_append.mp
    (hErase.nodup_iff.mp (List.nodup_append.mp hNodup).2.1)).2.2
  refine owned_congr fun z hz => SameAt.linked ?_
  have hne : z ≠ ⟨.statement, s⟩ := fun heq =>
    hDisjoint ⟨.statement, s⟩ (mem_owned_self w _) z (List.mem_flatMap.mpr ⟨x, hx, hz⟩) heq.symm
  obtain ⟨kind, id⟩ := z
  cases kind with
  | statement => exact Function.update_of_ne (fun heq : id = s => hne (by rw [heq])) ..
  | _ => first | exact rfl | trivial

/-- A parameter becomes that of a held statement. -/
theorem Sound.adopt {name : TString} (h : Sound w (⟨.parameter, p⟩ :: held))
    (hs : ⟨.statement, s⟩ ∈ held) : Sound (w.withParam s p name) held where
  minted := h.minted
  cursors := h.cursors
  kinds x hx := h.kinds x (List.mem_cons_of_mem _ hx)
  net y hy := by
    have hNet := h.net y hy
    have hErase := (List.perm_cons_erase hs).flatMap_right w.owned
    have hErase' := (List.perm_cons_erase hs).flatMap_right (w.withParam s p name).owned
    rw [List.flatMap_cons] at hNet hErase hErase'
    have hOwned : (held.erase ⟨.statement, s⟩).flatMap (w.withParam s p name).owned =
        (held.erase ⟨.statement, s⟩).flatMap w.owned :=
      List.flatMap_congr fun o ho => h.owned_others hs ho
    show Ledger.net w.trace y = _
    rw [hNet, hErase'.count_eq, hOwned, List.count_append, List.count_append,
      (owned_withParam w s p name).count_eq, List.count_append, hErase.count_eq, List.count_append]
    push_cast
    omega

end Sound

-- ---------------------------------------------------------------------------
-- One call
-- ---------------------------------------------------------------------------

/-- **One call** of an application keeps its objects sound; one that throws
gained nothing. -/
theorem Sound.call (h : Sound w held) (l : Call) (hObject : ∀ x ∈ l.object, x ∈ held) :
    wp l.run (fun x w' => Sound w' (x.toList ++ l.keeps held))
      (fun _ w' => Conserves w.fresh w w' []) w := by
  cases l with
  | execute sql =>
    rw [Call.run, wp_bind]
    exact wp_mono (wp_execute sql h.cursors) (fun _ _ hC => h.conserve hC) (fun _ _ hC => hC)
  | prepare sql =>
    rw [Call.run, wp_bind]
    exact wp_mono (wp_newStatement sql h.cursors) (fun _ _ ⟨_, _, hP⟩ => h.gain hP.gains rfl)
      (fun _ _ hC => hC)
  | select sql fetchSize =>
    rw [Call.run, wp_bind]
    exact wp_mono (gains_connectionSelect sql fetchSize h.cursors)
      (fun _ _ hG => h.gain hG rfl) (fun _ _ hC => hC)
  | bind s name type =>
    rw [Call.run, wp_bind]
    refine wp_mono (wp_statementBind s name type h.cursors)
      (fun p w' ⟨_, _, w₁, param', t, _, h₁, hw'⟩ => ?_) (fun _ _ hC => hC.2.1)
    rw [wp_pure, hw']
    exact (h.gain h₁.gains rfl).adopt (hObject _ rfl)
  | stmtExecute s =>
    rw [Call.run, wp_bind]
    exact wp_mono (wp_executePrepared s) (fun _ _ ⟨hEx, _⟩ => h.conserve (hEx.conserves _))
      (fun _ _ hEx => hEx.conserves _)
  | stmtSelect s fetchSize =>
    rw [Call.run, wp_bind]
    exact wp_mono (gains_selectWith s fetchSize h.cursors) (fun _ _ hG => h.gain hG.1 rfl)
      (fun _ _ hC => hC)
  | next r =>
    rw [Call.run, wp_bind]
    exact wp_mono (reading_next r w) (fun _ _ hR => h.conserve (hR.conserves _))
      (fun _ _ hR => hR.conserves _)
  | release x =>
    have hx : x ∈ held := hObject x rfl
    rw [Call.run, wp_bind]
    refine wp_mono (wp_releaseObj 0 ?_ h.cursors ?_) (fun _ _ hF => h.release hx hF)
      (fun _ _ hE => hE)
    · have hKind := h.kinds x hx
      obtain ⟨kind, id⟩ := x
      cases kind <;> first | exact .inl rfl | exact .inr (.inl rfl) | exact .inr (.inr rfl) |
        cases hKind
    · exact (List.nodup_flatMap.mp h.nodup).1 x hx

theorem Sound.answering (h : Sound w held) (o : OciCall → OciResult) :
    Sound (w.answering o) held :=
  ⟨h.minted, h.cursors, h.kinds, h.net⟩

theorem App.step_sound (a : App) (l : Answered) (h : Sound a.w a.held) :
    Sound (a.step l).w (a.step l).held := by
  rw [App.step]
  split
  · rename_i hObject
    have hCall := (h.answering l.2).call l.1 hObject
    split
    · rename_i hRun
      have hAfter := of_wp_ok hCall hRun
      exact hAfter
    · rename_i hRun
      have hAfter := of_wp_error hCall hRun
      exact (h.answering l.2).conserve hAfter
  · exact h

-- ---------------------------------------------------------------------------
-- Conservation
-- ---------------------------------------------------------------------------

/-- The resource is one that statements and result sets are made of, and was
made between the two worlds. -/
def MadeSince (w w' : World) (x : Res) : Prop :=
  x.kind.ofStatement = true ∧ acquired w.trace x = 0 ∧ 0 < acquired w'.trace x

/-- The resource was acquired once and its release asked for once, whatever OCI
answered when it was to free a handle or a descriptor. -/
def ReleasedOnce (w : World) (x : Res) : Prop := acquired w.trace x = 1 ∧ released w.trace x = 1

/-- When the call throws, it has released all it made, and what was there is
not released by it. -/
def App.CleansUp (a : App) (l : Answered) : Prop :=
  a.Allows l.1 → ∀ e w', l.1.run (a.w.answering l.2) = .error e w' →
    (∀ x, MadeSince a.w w' x → ReleasedOnce w' x) ∧ ∀ x, net w'.trace x = net a.w.trace x

/-- Where nothing of a kind is owned, what was acquired was released. -/
theorem releasedOnce_of_net (hMinted : Minted w.fresh w.trace) (hx : 0 < acquired w.trace x)
    (hNet : net w.trace x = 0) : ReleasedOnce w x := by
  have hOnce : acquired w.trace x = 1 := Nat.le_antisymm (hMinted.once x) hx
  exact ⟨hOnce, released_eq_one hOnce hNet⟩

theorem Sound.cleansUp (a : App) (l : Answered) (h : Sound a.w a.held) : a.CleansUp l := by
  intro hObject e w' hRun
  have hCall := (h.answering l.2).call l.1 hObject
  have hC := of_wp_error hCall hRun
  have hNet : ∀ x, Ledger.net w'.trace x = Ledger.net a.w.trace x := fun x => by
    rw [hC.net]
    simp [World.answering]
  refine ⟨?_, hNet⟩
  rintro x ⟨hKind, hOld, hNew⟩
  refine releasedOnce_of_net (hC.minted h.minted) hNew ?_
  -- what was not acquired before is not owned
  have hBefore := h.net x hKind
  rw [hNet, hBefore]
  unfold Ledger.net at hBefore
  omega

/-- A connection without statements: nothing is held. -/
theorem sound_start (h : w.NoStatements) : Sound w [] where
  minted := h.minted
  cursors := cursorsBelow_of_none h.cursors _
  kinds _ hx := nomatch hx
  net x hx := h.net x hx

/-- A new connection that was opened and closed any number of times. -/
def App.opened (cfg : Setting) (before : List ConnCall) : App :=
  .start (run ConnRun.step (ConnRun.start cfg) before).w

theorem sound_opened (cfg : Setting) (before : List ConnCall) :
    Sound (App.opened cfg before).w (App.opened cfg before).held :=
  sound_start (noStatements_run cfg before)

theorem sound_run (cfg : Setting) (before : List ConnCall) (calls : List Answered) :
    Sound (run App.step (.opened cfg before) calls).w
      (run App.step (.opened cfg before) calls).held :=
  run_invariant (I := fun a : App => Sound a.w a.held) (fun a l h => a.step_sound l h)
    (sound_opened cfg before) calls

/-- **Statement resources are conserved.** A connection was opened and closed
any number of times before; then the application makes any calls, with any
answers of OCI. Every call that throws has released, once each, all that it
made, and has released nothing else; and when the application has released all
that was returned to it, everything that was made in the run was released
exactly once. A release counts when it was asked for, whatever OCI answered. -/
theorem statement_resources_conserved (cfg : Setting) (before : List ConnCall)
    (calls : List Answered) :
    let a₀ := App.opened cfg before
    AllSteps App.step App.CleansUp a₀ calls ∧
      ((run App.step a₀ calls).held = [] →
        ∀ x, MadeSince a₀.w (run App.step a₀ calls).w x →
          ReleasedOnce (run App.step a₀ calls).w x) := by
  intro a₀
  refine ⟨allSteps_of_invariant (I := fun a : App => Sound a.w a.held)
    (fun a l h => a.step_sound l h) (fun a l h => h.cleansUp a l) (sound_opened cfg before) calls,
    fun hNone x ⟨hKind, _, hNew⟩ => ?_⟩
  have hEnd := sound_run cfg before calls
  refine releasedOnce_of_net hEnd.minted hNew ?_
  rw [hEnd.net x hKind, hNone]
  rfl

/-- A query whose second column has a type the library does not know. -/
def unsupportedColumn : Query where
  desc := [⟨tstr "ID", [], [], SQLT_NUM, 22⟩, ⟨tstr "DOC", [], [], 112, 0⟩]
  rows := []

/-- A statement is prepared and bound, the select on it throws at the second
column, and the statement is released. -/
def unsupportedRun : App :=
  run App.step (.opened (.serving unsupportedColumn) [.open ⟨true, true, false⟩ allWell])
    [(.prepare [], allWell), (.bind 5 (tstr "nID") .unknown, allWell),
      (.stmtSelect 5 2, allWell), (.release ⟨.statement, 5⟩, allWell)]

/-- The parameter, the result set and the first column are released once. -/
theorem statement_resources_conserved_unsupported_column :
    ReleasedOnce unsupportedRun.w ⟨.parameter, 7⟩ ∧
      ReleasedOnce unsupportedRun.w ⟨.resultSet, 8⟩ ∧
      ReleasedOnce unsupportedRun.w ⟨.column, 10⟩ := by
  have hAll := (statement_resources_conserved (.serving unsupportedColumn)
    [.open ⟨true, true, false⟩ allWell] [(.prepare [], allWell),
      (.bind 5 (tstr "nID") .unknown, allWell), (.stmtSelect 5 2, allWell),
      (.release ⟨.statement, 5⟩, allWell)]).2 (by decide +kernel)
  exact ⟨hAll _ (by unfold MadeSince; decide +kernel), hAll _ (by unfold MadeSince; decide +kernel),
    hAll _ (by unfold MadeSince; decide +kernel)⟩

end Epol
