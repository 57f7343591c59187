import ProviderTypes.Build
import ProviderTypes.Proofs.Registry.Bare

/-!
# ProviderTypes.Proofs.Build.Script

Steps that fill a registry, as scripts.  A script lists what a step registers, in
order, and the failures that it meets on the way; it is written down without a
registry.  `Registry.play` inserts the entries of a script up to the first failure
or refusal.

`Build.Performs step script result found` says that a step is its script played:
on every workspace it leaves the registry that playing leaves, it fails as playing
fails, and where the script plays to its end it answers `result` and has recorded
the members `found`.  Steps in sequence perform their scripts in sequence
(`Performs.bind`, `Performs.enter`, `Performs.forM`).
-/

namespace ProviderTypes

/-- What a step registers, in order, and the failures on its way. -/
abbrev Script := List (Except ExportError Registry.Entry)

namespace Registry

variable {r r' m : Registry} {s t : Script} {e : ExportError}

/-- Insert the entries of a script up to the first failure or refusal. -/
def play (r : Registry) : Script → Except ExportError Unit × Registry
  | [] => (.ok (), r)
  | .error e :: _ => (.error e, r)
  | .ok entry :: rest =>
    match r.insert entry.1 entry.2 with
    | .error x => (.error (.registry x), r)
    | .ok r' => r'.play rest

/-- What follows a script is played where the script does not stop. -/
theorem play_append (r : Registry) (s t : Script) :
    r.play (s ++ t) =
      match r.play s with
      | (.ok (), m) => m.play t
      | (.error e, m) => (.error e, m) := by
  induction s generalizing r with
  | nil => rfl
  | cons x s ih =>
      cases x with
      | error x => rfl
      | ok entry =>
          rw [List.cons_append, play, play]
          cases r.insert entry.1 entry.2 with
          | error x => rfl
          | ok m => exact ih m

/-- Two scripts in a row succeed when each does on what the one before leaves. -/
theorem play_append_eq_ok :
    r.play (s ++ t) = (.ok (), r') ↔ ∃ m, r.play s = (.ok (), m) ∧ m.play t = (.ok (), r') := by
  rw [play_append]
  obtain ⟨_ | _, m⟩ := r.play s <;> simp

/-- Two scripts in a row fail when the first does, or the second after it. -/
theorem play_append_eq_error :
    r.play (s ++ t) = (.error e, r') ↔
      r.play s = (.error e, r') ∨ ∃ m, r.play s = (.ok (), m) ∧ m.play t = (.error e, r') := by
  rw [play_append]
  obtain ⟨_ | _, m⟩ := r.play s <;> simp

/-- What two scripts in a row answer is the answer of one of them. -/
theorem play_append_cases {result : Except ExportError Unit} (h : r.play (s ++ t) = (result, r')) :
    r.play s = (result, r') ∨ ∃ m, r.play s = (.ok (), m) ∧ m.play t = (result, r') := by
  cases result with
  | ok u => exact Or.inr (play_append_eq_ok.1 h)
  | error e => exact play_append_eq_error.1 h

/-- One entry is inserted, or the registry stays. -/
theorem play_entry_cases {entry : Entry} {result : Except ExportError Unit}
    (h : r.play [.ok entry] = (result, r')) :
    (result = .ok () ∧ r.insert entry.1 entry.2 = .ok r') ∨ (result ≠ .ok () ∧ r' = r) := by
  rw [play] at h
  cases hi : r.insert entry.1 entry.2 with
  | error x =>
      rw [hi] at h
      cases h
      exact Or.inr ⟨by simp, rfl⟩
  | ok m =>
      rw [hi] at h
      cases h
      exact Or.inl ⟨rfl, rfl⟩

/-- A script plays to its end when it has no failures and all its entries are granted. -/
theorem play_eq_ok :
    r.play s = (.ok (), r') ↔
      ∃ es : List Entry, s = es.map .ok ∧ es.foldlM (fun r e => r.insert e.1 e.2) r = .ok r' := by
  induction s generalizing r with
  | nil => simp [play, pure, Except.pure]
  | cons x s ih =>
      cases x with
      | error x =>
          constructor
          · intro h
            simp [play] at h
          · intro hexists
            obtain ⟨es, hs, -⟩ := hexists
            cases es <;> simp at hs
      | ok entry =>
          rw [play]
          constructor
          · intro h
            cases hi : r.insert entry.1 entry.2 with
            | error x => simp [hi] at h
            | ok m =>
                rw [hi] at h
                obtain ⟨es, rfl, hes⟩ := ih.1 h
                exact ⟨entry :: es, rfl, foldlM_cons_eq_ok.2 ⟨m, hi, hes⟩⟩
          · intro hexists
            obtain ⟨es, hs, hes⟩ := hexists
            cases es with
            | nil => simp at hs
            | cons entry' es =>
                simp only [List.map_cons, List.cons.injEq, Except.ok.injEq] at hs
                obtain ⟨rfl, rfl⟩ := hs
                obtain ⟨m, hi, hes⟩ := foldlM_cons_eq_ok.1 hes
                rw [hi]
                exact ih.2 ⟨es, rfl, hes⟩

end Registry

namespace RootCategories

/-- Record members in order. -/
def addAll (r : RootCategories) (found : List (RootCategory × String)) : RootCategories :=
  found.foldl (fun r p => r.add p.1 p.2) r

/-- Members may be added in two goes. -/
theorem addAll_append (r : RootCategories) (f g : List (RootCategory × String)) :
    r.addAll (f ++ g) = (r.addAll f).addAll g := List.foldl_append

end RootCategories

namespace Build

variable {α β ε : Type}

/-! ## running steps -/

theorem runOn_get (w : Workspace) : (get : Build Workspace).runOn w = (.ok w, w) := rfl

theorem runOn_modify (f : Workspace → Workspace) (w : Workspace) :
    (modify f : Build Unit).runOn w = (.ok (), f w) := rfl

/-- Steps run in turn, until one fails. -/
theorem runOn_bind (x : Build α) (f : α → Build β) (w : Workspace) :
    (x >>= f).runOn w =
      match x.runOn w with
      | (.ok a, w') => (f a).runOn w'
      | (.error e, w') => (.error e, w') := by
  unfold runOn
  rw [ExceptT.run_bind, StateT.run_bind]
  change (match StateT.run (ExceptT.run x) w with | (a, s) => _) = _
  cases StateT.run (ExceptT.run x) w with
  | mk a w' => cases a <;> rfl

/-- A computation without state leaves the state. -/
theorem runOn_lift (wrap : ε → ExportError) (x : Except ε α) (w : Workspace) :
    (lift wrap x).runOn w = (x.mapError wrap, w) := by
  cases x <;> rfl

/-- An insertion that is refused leaves the state. -/
theorem runOn_insert_error {key : QualifiedName} {c : Container} {e : RegistryError}
    {w : Workspace} (h : w.registry.insert key c = .error e) :
    (insert key c).runOn w = (.error (.registry e), w) := by
  unfold insert
  rw [runOn_bind, runOn_get]
  simp only [h]
  rfl

/-- An insertion that is granted leaves the new registry, and a record in the log. -/
theorem runOn_insert_ok {key : QualifiedName} {c : Container} {r : Registry} {w : Workspace}
    (h : w.registry.insert key c = .ok r) :
    ∃ log, (insert key c).runOn w = (.ok (), { w with registry := r, log := log }) := by
  unfold insert
  rw [runOn_bind, runOn_get]
  simp only [h]
  split
  · exact ⟨_, rfl⟩
  · exact ⟨_, rfl⟩

/-- A replacement leaves the new registry. -/
theorem runOn_replace {key : QualifiedName} {c : Container} {r : Registry} {w : Workspace}
    (h : w.registry.replace key c = .ok r) :
    (replace key c).runOn w = (.ok (), { w with registry := r }) := by
  unfold replace
  rw [runOn_bind, runOn_get]
  simp only [h]
  rfl

/-! ## performing a script -/

/-- The step is its script played. -/
structure Performs (step : Build α) (script : Script) (result : Except ExportError α)
    (found : List (RootCategory × String)) : Prop where
  /-- Where the script plays to its end, the step answers its result. -/
  played : ∀ {w r}, w.registry.play script = (.ok (), r) →
    ∃ log, step.runOn w = (result, ⟨r, w.categories.addAll found, log⟩)
  /-- Where the script stops, the step fails in the same way. -/
  stopped : ∀ {w e r}, w.registry.play script = (.error e, r) →
    ∃ categories log, step.runOn w = (.error e, ⟨r, categories, log⟩)

variable {x : Build α} {g : α → Build β} {s t : Script} {a : α} {e : ExportError}
  {u : Except ExportError α} {v : Except ExportError β} {f f' : List (RootCategory × String)}

/-- A step that succeeds answers its result, and has played its script to the end. -/
theorem Performs.of_runOn_eq_ok {w w' : Workspace} (h : Performs x s u f)
    (hrun : x.runOn w = (.ok a, w')) : u = .ok a ∧ w.registry.play s = (.ok (), w'.registry) := by
  cases hplay : w.registry.play s with
  | mk played r =>
      cases played with
      | ok =>
          obtain ⟨log, hlog⟩ := h.played hplay
          rw [hlog] at hrun
          cases hrun
          exact ⟨rfl, rfl⟩
      | error e =>
          obtain ⟨categories, log, hlog⟩ := h.stopped hplay
          rw [hlog] at hrun
          cases hrun

/-- A step that leaves registry and members alone performs the empty script. -/
theorem performs_nil (h : ∀ w, ∃ log, x.runOn w = (u, { w with log := log })) :
    Performs x [] u [] where
  played {w r} hp := by
    cases hp
    exact h w
  stopped hp := by simp [Registry.play] at hp

theorem performs_pure (a : α) : Performs (pure a) [] (.ok a) [] :=
  performs_nil fun w => ⟨w.log, rfl⟩

theorem performs_note (level : LogLevel) (topic : LogTopic) (message : String) :
    Performs (note level topic message) [] (.ok ()) [] :=
  performs_nil fun _ => ⟨_, rfl⟩

/-- A computation without state registers nothing. -/
theorem performs_lift (wrap : ε → ExportError) (y : Except ε α) :
    Performs (lift wrap y) [] (y.mapError wrap) [] :=
  performs_nil fun w => ⟨w.log, runOn_lift wrap y w⟩

/-- A member is recorded in its category. -/
theorem performs_addMember (category : RootCategory) (member : String) :
    Performs (addMember category member) [] (.ok ()) [(category, member)] where
  played {w r} hp := by
    cases hp
    exact ⟨w.log, rfl⟩
  stopped hp := by simp [Registry.play] at hp

/-- An insertion is the script with this one entry. -/
theorem performs_insert (key : QualifiedName) (c : Container) :
    Performs (insert key c) [.ok (key, c)] (.ok ()) [] where
  played {w r} hp := by
    rw [Registry.play] at hp
    cases hi : w.registry.insert key c with
    | error e => simp [hi] at hp
    | ok m =>
        simp only [hi, Registry.play, Prod.mk.injEq, true_and] at hp
        subst hp
        exact runOn_insert_ok hi
  stopped {w e r} hp := by
    rw [Registry.play] at hp
    cases hi : w.registry.insert key c with
    | error x =>
        simp only [hi, Prod.mk.injEq, Except.error.injEq] at hp
        obtain ⟨rfl, rfl⟩ := hp
        exact ⟨w.categories, w.log, runOn_insert_error hi⟩
    | ok m => simp [hi, Registry.play] at hp

/-- Where the script of a step stops, what follows the step does not happen. -/
theorem Performs.stopped_bind {w : Workspace} {r : Registry} (hx : Performs x s u f)
    (hs : w.registry.play s = (.error e, r)) :
    ∃ categories log, (x >>= g).runOn w = (.error e, ⟨r, categories, log⟩) := by
  obtain ⟨categories, log, hlog⟩ := hx.stopped hs
  exact ⟨categories, log, by rw [runOn_bind, hlog]⟩

/-- Steps in sequence perform their scripts in sequence. -/
theorem Performs.bind (hx : Performs x s (.ok a) f) (hg : Performs (g a) t v f') :
    Performs (x >>= g) (s ++ t) v (f ++ f') where
  played {w r} hp := by
    obtain ⟨m, hs, ht⟩ := Registry.play_append_eq_ok.1 hp
    obtain ⟨log, hlog⟩ := hx.played hs
    obtain ⟨log', hlog'⟩ := hg.played (w := ⟨m, w.categories.addAll f, log⟩) ht
    refine ⟨log', ?_⟩
    rw [runOn_bind, hlog]
    simp only [hlog', RootCategories.addAll_append]
  stopped {w e r} hp := by
    cases Registry.play_append_eq_error.1 hp with
    | inl hs => exact hx.stopped_bind hs
    | inr hst =>
        obtain ⟨m, hs, ht⟩ := hst
        obtain ⟨log, hlog⟩ := hx.played hs
        obtain ⟨categories, log', hlog'⟩ := hg.stopped (w := ⟨m, w.categories.addAll f, log⟩) ht
        exact ⟨categories, log', by rw [runOn_bind, hlog]; exact hlog'⟩

/-- A step that fails at the end of its script stops what follows it there. -/
theorem Performs.fail (hx : Performs x s (.error e) f) :
    Performs (x >>= g) (s ++ .error e :: t) v f' where
  played hp := by
    obtain ⟨m, -, ht⟩ := Registry.play_append_eq_ok.1 hp
    simp [Registry.play] at ht
  stopped {w e' r} hp := by
    cases Registry.play_append_eq_error.1 hp with
    | inl hs => exact hx.stopped_bind hs
    | inr hst =>
        obtain ⟨m, hs, ht⟩ := hst
        obtain ⟨log, hlog⟩ := hx.played hs
        simp only [Registry.play, Prod.mk.injEq, Except.error.injEq] at ht
        obtain ⟨rfl, rfl⟩ := ht
        exact ⟨w.categories.addAll f, log, by rw [runOn_bind, hlog]⟩

/-- Registering the answer of a step adds one entry to its script, and the step's failure, if it
has one, in the place of that entry. -/
theorem Performs.enter {key : QualifiedName} {c : α → Container} (hx : Performs x s u f)
    (hg : ∀ a, u = .ok a → Performs (g a) t v f') :
    Performs (do let a ← x; insert key (c a); g a)
      (s ++ (u.map fun a => (key, c a)) :: t) v (f ++ f') := by
  cases u with
  | error e => exact hx.fail
  | ok a => exact hx.bind ((performs_insert key (c a)).bind (hg a rfl))

/-- A step for each member of a list. -/
theorem Performs.forM {ι : Type} {l : List ι} {step : ι → Build Unit} {script : ι → Script}
    {found : ι → List (RootCategory × String)}
    (h : ∀ i, Performs (step i) (script i) (.ok ()) (found i)) :
    Performs (l.forM step) (l.flatMap script) (.ok ()) (l.flatMap found) := by
  induction l with
  | nil => exact performs_pure ()
  | cons i l ih => exact (h i).bind ih

/-- A step for each member of a list, where none registers anything. -/
theorem Performs.forM_nil {ι : Type} {l : List ι} {step : ι → Build Unit}
    (h : ∀ i, Performs (step i) [] (.ok ()) []) : Performs (l.forM step) [] (.ok ()) [] := by
  induction l with
  | nil => exact performs_pure ()
  | cons i l ih => exact (h i).bind ih

end Build

end ProviderTypes
