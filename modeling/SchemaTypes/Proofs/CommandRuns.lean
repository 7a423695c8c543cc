import SchemaTypes.CommandLine.Run
import SchemaTypes.Proofs.FileWrites

/-! # What `check` and `roundtrip` answer and write

Both commands compile the schema, choose the type (the one named, else the schema's title),
resolve the inputs to paths and load each path as the type (`Setup`). Their answer is then
whether every loaded path loaded: `check` answers exactly when the setup succeeds, and a run of
`roundtrip` that ends without error answers the same.

`roundtrip --out dir` writes each input that loaded to the file of its file name in `dir`,
one input after the other. The files are named by the file name alone, so two inputs with the
same file name from different directories go to one file, and the later one is what it holds.
What holds in general (`inputs_reported_and_written`): every input that loaded has a file name
and an indented JSON text, and the file of that name holds the text unless a later input that
loaded has the same file name. Writes under other names leave the file alone, because
different file names in one directory lead to different places (`join_places_differ`).

Runs are taken apart with `Session.bind_ok`; the steps that only print keep the files.
-/

namespace SchemaTypes.CommandLine

open SchemaTypes.Files

variable {α β γ : Type}

/-! ## Runs of sessions -/

namespace Session

theorem run_bind_of_ok {x : Session α} {f : α → Session β} {c c₁ : Console} {a : α}
    (first : (ExceptT.run x).run c = (.ok a, c₁)) :
    (ExceptT.run (x >>= f)).run c = (ExceptT.run (f a)).run c₁ := by
  simp only [ExceptT.run_bind, StateT.run_bind, first]
  rfl

/-- A successful run of `x >>= f` is a successful run of `x` followed by one of `f`. -/
theorem bind_ok {x : Session α} {f : α → Session β} {c c' : Console} {b : β}
    (ran : (ExceptT.run (x >>= f)).run c = (.ok b, c')) :
    ∃ a c₁, (ExceptT.run x).run c = (.ok a, c₁) ∧ (ExceptT.run (f a)).run c₁ = (.ok b, c') := by
  cases first : (ExceptT.run x).run c with
  | mk result c₁ =>
    cases result with
    | error e =>
      have failed : ((ExceptT.run (x >>= f)).run c).1 = .error e := by
        simp only [ExceptT.run_bind, StateT.run_bind, first]
        rfl
      rw [ran] at failed
      cases failed
    | ok a => exact ⟨a, c₁, rfl, run_bind_of_ok first ▸ ran⟩

@[simp] theorem run_pure (a : α) (c : Console) :
    (ExceptT.run (pure a : Session α)).run c = (.ok a, c) := rfl

@[simp] theorem run_currentFiles (c : Console) :
    (ExceptT.run currentFiles).run c = (.ok c.files, c) := rfl

theorem run_forM_cons (x : γ) (xs : List γ) (f : γ → Session PUnit) (c : Console) :
    (ExceptT.run ((x :: xs).forM f)).run c = (ExceptT.run (f x >>= fun _ => xs.forM f)).run c :=
  rfl

theorem ok_inj {a b : α} {c c' : Console}
    (same : ((.ok a, c) : Id (Except Failure α × Console)) = (.ok b, c')) : a = b ∧ c = c' :=
  ⟨Except.ok.inj (Prod.mk.inj same).1, (Prod.mk.inj same).2⟩

theorem pure_ok {a b : α} {c c' : Console}
    (ran : (ExceptT.run (pure a : Session α)).run c = (.ok b, c')) : a = b ∧ c = c' := by
  cases ran
  exact ⟨rfl, rfl⟩

theorem liftExcept_run {x : Except Failure α} {a : α} (ok : x = .ok a) (c : Console) :
    (ExceptT.run (liftExcept x : Session α)).run c = (.ok a, c) := by
  rw [ok]
  rfl

theorem liftExcept_ok {x : Except Failure α} {a : α} {c c' : Console}
    (ran : (ExceptT.run (liftExcept x : Session α)).run c = (.ok a, c')) : x = .ok a ∧ c = c' := by
  cases x with
  | error e => cases ran
  | ok b =>
    obtain ⟨rfl, rfl⟩ := ok_inj ran
    exact ⟨rfl, rfl⟩

/-- A loop whose every step succeeds and keeps the files succeeds and keeps the files. -/
theorem forM_keeps_files (xs : List γ) (f : γ → Session PUnit)
    (step : ∀ x ∈ xs, ∀ c, ∃ c', (ExceptT.run (f x)).run c = (.ok ⟨⟩, c') ∧ c'.files = c.files)
    (c : Console) :
    ∃ c', (ExceptT.run (xs.forM f)).run c = (.ok ⟨⟩, c') ∧ c'.files = c.files := by
  induction xs generalizing c with
  | nil => exact ⟨c, rfl, rfl⟩
  | cons x xs ih =>
    obtain ⟨c₁, first, kept⟩ := step x List.mem_cons_self c
    obtain ⟨c', rest, kept'⟩ := ih (fun y member => step y (List.mem_cons_of_mem x member)) c₁
    refine ⟨c', ?_, kept'.trans kept⟩
    rw [run_forM_cons, run_bind_of_ok first]
    exact rest

end Session

/-! ## The setup -/

/-- The setup of `check` and `roundtrip` from a console: the schema compiles to `r`, the type is
the one named or else the schema's title, and the inputs resolve to the paths that are loaded,
in order, as `loaded`. -/
structure Setup (c : Console) (choice : SchemaChoice) (inputs : List String) (r : Registry)
    (typeName : String) (loaded : List Loaded) (vocab : Vocabulary) : Prop where
  compiled : compileSchema c.files choice.schema = .ok r
  chosen : (choice.typeName <|> r.root) = some typeName
  loadedAll : loadAll r c.files typeName inputs = .ok (loaded, vocab)
  resolved : resolveInputs c.files inputs = .ok (loaded.map (·.path))

/-- Each step of a fold that appends one loaded input for each path. -/
theorem foldl_loaded_paths {σ : Type} (F : List Loaded × σ → String → List Loaded × σ)
    (appends : ∀ acc path, ∃ l, (F acc path).1 = acc.1 ++ [l] ∧ l.path = path) :
    ∀ (paths : List String) (acc : List Loaded × σ),
      (paths.foldl F acc).1.map (·.path) = acc.1.map (·.path) ++ paths
  | [], acc => by simp
  | path :: paths, acc => by
    obtain ⟨l, appended, named⟩ := appends acc path
    rw [List.foldl_cons, foldl_loaded_paths F appends paths, appended]
    simp [named]

/-- Loading gives one result for each path the inputs resolve to. -/
theorem loadAll_paths {r : Registry} {t : FileTree} {typeName : String} {inputs : List String}
    {loaded : List Loaded} {vocab : Vocabulary}
    (ran : loadAll r t typeName inputs = .ok (loaded, vocab)) :
    resolveInputs t inputs = .ok (loaded.map (·.path)) := by
  unfold loadAll at ran
  cases classed : (r.classOf typeName).mapError (Failure.during []) with
  | error e => rw [classed] at ran; cases ran
  | ok cls =>
    rw [classed] at ran
    cases resolved : resolveInputs t inputs with
    | error e => simp [resolved, bind, Except.bind] at ran
    | ok paths =>
      simp only [resolved, bind, Except.bind, pure, Except.pure, Except.ok.injEq] at ran
      rw [← (Prod.mk.inj ran).1, foldl_loaded_paths]
      · simp
      · intro acc path
        exact ⟨_, rfl, rfl⟩

theorem loadInputs_ok {choice : SchemaChoice} {inputs : List String} {c c' : Console}
    {r : Registry} {typeName : String} {loaded : List Loaded} {vocab : Vocabulary}
    (ran : (ExceptT.run (loadInputs choice inputs)).run c = (.ok (r, typeName, loaded, vocab), c')) :
    Setup c choice inputs r typeName loaded vocab ∧ c' = c := by
  unfold loadInputs at ran
  obtain ⟨t, c₁, files, ran⟩ := Session.bind_ok ran
  rw [Session.run_currentFiles] at files
  obtain ⟨rfl, rfl⟩ := Session.ok_inj files
  obtain ⟨r', c₂, compiling, ran⟩ := Session.bind_ok ran
  obtain ⟨compiled, rfl⟩ := Session.liftExcept_ok compiling
  -- the type is chosen by a match, which the run follows once the choice is known
  cases named : (choice.typeName <|> r'.root) with
  | none =>
    rw [named] at ran
    obtain ⟨_, _, failed, -⟩ := Session.bind_ok ran
    cases failed
  | some name =>
    rw [named] at ran
    obtain ⟨typeName', c₃, chosen, ran⟩ := Session.bind_ok ran
    obtain ⟨rfl, rfl⟩ := Session.pure_ok chosen
    obtain ⟨⟨loaded', vocab'⟩, c₄, loading, ran⟩ := Session.bind_ok ran
    obtain ⟨loadedAll, rfl⟩ := Session.liftExcept_ok loading
    obtain ⟨same, rfl⟩ := Session.pure_ok ran
    simp only [Prod.mk.injEq] at same
    obtain ⟨rfl, rfl, rfl, rfl⟩ := same
    exact ⟨⟨compiled, named, loadedAll, loadAll_paths loadedAll⟩, rfl⟩

theorem loadInputs_of_setup {choice : SchemaChoice} {inputs : List String} {c : Console}
    {r : Registry} {typeName : String} {loaded : List Loaded} {vocab : Vocabulary}
    (setup : Setup c choice inputs r typeName loaded vocab) :
    (ExceptT.run (loadInputs choice inputs)).run c = (.ok (r, typeName, loaded, vocab), c) := by
  unfold loadInputs
  rw [Session.run_bind_of_ok (Session.run_currentFiles c)]
  rw [Session.run_bind_of_ok (Session.liftExcept_run setup.compiled c)]
  dsimp only
  rw [setup.chosen]
  dsimp only
  rw [Session.run_bind_of_ok (Session.run_pure typeName c)]
  rw [Session.run_bind_of_ok (Session.liftExcept_run setup.loadedAll c)]
  rfl

/-! ## The report -/

/-- The report prints a line per input and the count, keeps the files, and answers whether
every input loaded. -/
theorem report_run (typeName : String) (loaded : List Loaded) (c : Console) :
    ∃ b c', (ExceptT.run (report typeName loaded)).run c = (.ok b, c') ∧ c'.files = c.files ∧
      (b = true ↔ ∀ l ∈ loaded, ∃ v, l.result = .ok v) := by
  have lines : ∀ l ∈ loaded, ∀ c, ∃ c',
      (ExceptT.run (reportLine typeName l)).run c = (.ok ⟨⟩, c') ∧ c'.files = c.files := by
    intro l _ c
    unfold reportLine
    split <;> exact ⟨_, rfl, rfl⟩
  obtain ⟨c₁, reported, kept⟩ := Session.forM_keeps_files loaded (reportLine typeName) lines c
  unfold report
  rw [Session.run_bind_of_ok reported]
  refine ⟨_, _, rfl, kept, ?_⟩
  -- the count of inputs that loaded is the number of inputs exactly when all loaded
  rw [beq_iff_eq, List.length_filter_eq_length_iff]
  apply forall₂_congr
  intro l _
  cases l.result <;> simp

/-! ## Writing back -/

theorem writeBack_error {r : Registry} {vocab : Vocabulary} {out : Option String} {l : Loaded}
    {e : Failure} (failed : l.result = .error e) (c : Console) :
    (ExceptT.run (writeBack r vocab out l)).run c = (.ok (), c) := by
  unfold writeBack
  rw [failed]
  rfl

/-- Writing back an input that loaded writes its indented JSON to the file of its file name in
the output directory. -/
theorem writeBack_ok {r : Registry} {vocab : Vocabulary} {dir : String} {l : Loaded} {v : Value}
    (loadedOk : l.result = .ok v) {c c' : Console}
    (ran : (ExceptT.run (writeBack r vocab (some dir) l)).run c = (.ok (), c')) :
    ∃ name text, PathPart.fileName? l.path = some name ∧ r.prettyJson vocab v = .ok text ∧
      c.files.write (PathPart.join dir name) text = .ok c'.files := by
  unfold writeBack at ran
  rw [loadedOk] at ran
  cases file : PathPart.fileName? l.path with
  | none =>
    rw [file] at ran
    obtain ⟨_, _, failed, -⟩ := Session.bind_ok ran
    cases failed
  | some name =>
    rw [file] at ran
    obtain ⟨name', c₁, named, ran⟩ := Session.bind_ok ran
    obtain ⟨rfl, rfl⟩ := Session.pure_ok named
    obtain ⟨text, c₂, printed, ran⟩ := Session.bind_ok ran
    obtain ⟨printed, rfl⟩ := Session.liftExcept_ok printed
    have pretty : r.prettyJson vocab v = .ok text := by
      cases json : r.prettyJson vocab v with
      | error e => rw [json] at printed; cases printed
      | ok s => rw [json] at printed; cases printed; rfl
    refine ⟨name, text, rfl, pretty, ?_⟩
    obtain ⟨t, c₃, files, ran⟩ := Session.bind_ok ran
    rw [Session.run_currentFiles] at files
    obtain ⟨rfl, rfl⟩ := Session.ok_inj files
    cases wrote : c.files.write (PathPart.join dir name) text with
    | error f => rw [wrote] at ran; cases ran
    | ok t' =>
      rw [wrote] at ran
      cases ran
      rfl

/-- Writing back later inputs keeps what the file of a name holds when none of them that
loaded has that file name. -/
theorem forM_writeBack_keeps {r : Registry} {vocab : Vocabulary} {dir path name text : String}
    (named : PathPart.fileName? path = some name) :
    ∀ (rest : List Loaded) (c c' : Console),
      (ExceptT.run (rest.forM (writeBack r vocab (some dir)))).run c = (.ok ⟨⟩, c') →
      (∀ l ∈ rest, ∀ v, l.result = .ok v → PathPart.fileName? l.path ≠ some name) →
      c.files.Holds (PathPart.join dir name) text → c'.files.Holds (PathPart.join dir name) text
  | [], c, c', ran, _, holds => by
    obtain ⟨-, rfl⟩ := Session.pure_ok ran
    exact holds
  | l :: rest, c, c', ran, others, holds => by
    rw [Session.run_forM_cons] at ran
    obtain ⟨⟨⟩, c₁, first, later⟩ := Session.bind_ok ran
    apply forM_writeBack_keeps named rest c₁ c' later
      (fun l' member => others l' (List.mem_cons_of_mem l member))
    cases result : l.result with
    | error e =>
      rw [writeBack_error result] at first
      cases first
      exact holds
    | ok v =>
      obtain ⟨name', text', named', -, wrote⟩ := writeBack_ok result first
      have other : name ≠ name' := fun same =>
        others l List.mem_cons_self v result (same ▸ named')
      exact FileTree.write_join_keeps_holds named named' other wrote holds

/-- After writing back loaded inputs, every one that loaded has a file name and an indented
JSON text, and the file of its name holds the text unless a later input that loaded has the
same file name. -/
theorem forM_writeBack_writes {r : Registry} {vocab : Vocabulary} {dir : String} :
    ∀ (loaded : List Loaded) (c c' : Console),
      (ExceptT.run (loaded.forM (writeBack r vocab (some dir)))).run c = (.ok ⟨⟩, c') →
      ∀ pre l post v, loaded = pre ++ l :: post → l.result = .ok v →
        ∃ name text, PathPart.fileName? l.path = some name ∧ r.prettyJson vocab v = .ok text ∧
          ((∀ l' ∈ post, ∀ v', l'.result = .ok v' → PathPart.fileName? l'.path ≠ some name) →
            c'.files.Holds (PathPart.join dir name) text)
  | [], _, _, _, pre, l, post, _, split, _ => by simp at split
  | x :: rest, c, c', ran, pre, l, post, v, split, loadedOk => by
    rw [Session.run_forM_cons] at ran
    obtain ⟨⟨⟩, c₁, first, later⟩ := Session.bind_ok ran
    cases pre with
    | nil =>
      -- the input written first, which every later write keeps unless it has the same name
      obtain ⟨rfl, rfl⟩ := List.cons.inj split
      obtain ⟨name, text, named, pretty, wrote⟩ := writeBack_ok loadedOk first
      exact ⟨name, text, named, pretty,
        fun others => forM_writeBack_keeps named rest c₁ c' later others (FileTree.write_holds wrote)⟩
    | cons y pre =>
      exact forM_writeBack_writes rest c₁ c' later pre l post v (List.cons.inj split).2 loadedOk

/-! ## The two commands -/

theorem checkInputs_ok_iff {choice : SchemaChoice} {inputs : List String} {c : Console} {b : Bool} :
    (∃ c', (ExceptT.run (checkInputs choice inputs)).run c = (.ok b, c')) ↔
      ∃ r typeName loaded vocab, Setup c choice inputs r typeName loaded vocab ∧
        (b = true ↔ ∀ l ∈ loaded, ∃ v, l.result = .ok v) := by
  unfold checkInputs
  constructor
  · rintro ⟨c', ran⟩
    obtain ⟨⟨r, typeName, loaded, vocab⟩, c₁, setup, ran⟩ := Session.bind_ok ran
    obtain ⟨setup, same⟩ := loadInputs_ok setup
    rw [same] at ran
    obtain ⟨b', c₂, reported, -, answer⟩ := report_run typeName loaded c
    have same : b = b' := (Session.ok_inj (ran.symm.trans reported)).1
    exact ⟨r, typeName, loaded, vocab, setup, same ▸ answer⟩
  · rintro ⟨r, typeName, loaded, vocab, setup, answer⟩
    obtain ⟨b', c', reported, -, answer'⟩ := report_run typeName loaded c
    have same : b' = b := Bool.eq_iff_iff.mpr (answer'.trans answer.symm)
    refine ⟨c', ?_⟩
    rw [Session.run_bind_of_ok (loadInputs_of_setup setup), ← same]
    exact reported

theorem roundtripInputs_ok {choice : SchemaChoice} {inputs : List String} {out : Option String}
    {c c' : Console} {b : Bool}
    (ran : (ExceptT.run (roundtripInputs choice inputs out)).run c = (.ok b, c')) :
    ∃ r typeName loaded vocab, Setup c choice inputs r typeName loaded vocab ∧
      (b = true ↔ ∀ l ∈ loaded, ∃ v, l.result = .ok v) ∧
      ∃ c₁, (ExceptT.run (loaded.forM (writeBack r vocab out))).run c₁ = (.ok ⟨⟩, c') := by
  unfold roundtripInputs at ran
  obtain ⟨⟨r, typeName, loaded, vocab⟩, c₁, setup, ran⟩ := Session.bind_ok ran
  obtain ⟨setup, same⟩ := loadInputs_ok setup
  rw [same] at ran
  obtain ⟨allLoaded, c₂, reported, ran⟩ := Session.bind_ok ran
  obtain ⟨b', c₂', reported', -, answer⟩ := report_run typeName loaded c
  obtain ⟨rfl, rfl⟩ := Session.ok_inj (reported'.symm.trans reported)
  -- the output directory is made first when there is one; then come the loop and the answer
  have loop : ∃ c₃, (ExceptT.run (loaded.forM (writeBack r vocab out) >>= fun _ => pure b')).run c₃ =
      (.ok b, c') := by
    cases out with
    | none => exact ⟨c₂', ran⟩
    | some dir =>
      obtain ⟨t, c₃, -, ran⟩ := Session.bind_ok ran
      cases made : t.makeAll dir with
      | error f =>
        rw [made] at ran
        obtain ⟨_, _, failed, -⟩ := Session.bind_ok ran
        cases failed
      | ok t' =>
        rw [made] at ran
        obtain ⟨⟨⟩, c₄, -, ran⟩ := Session.bind_ok ran
        exact ⟨c₄, ran⟩
  obtain ⟨c₃, ran⟩ := loop
  obtain ⟨⟨⟩, c₄, written, ran⟩ := Session.bind_ok ran
  obtain ⟨rfl, rfl⟩ := Session.pure_ok ran
  exact ⟨r, typeName, loaded, vocab, setup, answer, c₃, written⟩

/-- `check` and `roundtrip` answer whether every input loaded, and `roundtrip --out` writes each
input that loaded to the file of its file name, which keeps it unless a later input that loaded
has the same file name. `check` answers exactly when the setup succeeds; `roundtrip` can also
fail to make the directory or to write. -/
theorem inputs_reported_and_written (choice : SchemaChoice) (inputs : List String) (c : Console)
    (b : Bool) :
    ((∃ c', (ExceptT.run (Task.check choice inputs false).perform).run c = (.ok b, c')) ↔
      ∃ r typeName loaded vocab, Setup c choice inputs r typeName loaded vocab ∧
        (b = true ↔ ∀ l ∈ loaded, ∃ v, l.result = .ok v)) ∧
    ∀ out c', (ExceptT.run (Task.roundtrip choice inputs out false).perform).run c = (.ok b, c') →
      ∃ r typeName loaded vocab, Setup c choice inputs r typeName loaded vocab ∧
        (b = true ↔ ∀ l ∈ loaded, ∃ v, l.result = .ok v) ∧
        ∀ dir, out = some dir → ∀ pre l post v, loaded = pre ++ l :: post → l.result = .ok v →
          ∃ name text, PathPart.fileName? l.path = some name ∧ r.prettyJson vocab v = .ok text ∧
            ((∀ l' ∈ post, ∀ v', l'.result = .ok v' → PathPart.fileName? l'.path ≠ some name) →
              c'.files.Holds (PathPart.join dir name) text) := by
  refine ⟨checkInputs_ok_iff, fun out c' ran => ?_⟩
  obtain ⟨r, typeName, loaded, vocab, setup, answer, c₁, written⟩ := roundtripInputs_ok ran
  refine ⟨r, typeName, loaded, vocab, setup, answer, ?_⟩
  rintro dir rfl
  exact forM_writeBack_writes loaded c₁ c' written

/-- A schema of one object type `T` and two instances of it, both in files named `r.json`. -/
def namesakeInputs : FileTree := FileTree.ofFiles
  [("schema.json",
      "\x7b\"title\": \"T\", \"type\": \"object\", \"properties\": \x7b\"A\": \x7b\"type\": \"integer\"\x7d\x7d\x7d"),
    ("x/r.json", "\x7b\"A\": 1\x7d"), ("y/r.json", "\x7b\"A\": 2\x7d")]

/-- Both inputs load, and both are written to `out/r.json`, which ends up holding the second. -/
theorem namesake_inputs_share_output :
    let o := execute ["roundtrip", "-s", "schema.json", "-i", "x/r.json", "y/r.json", "-o", "out"]
      namesakeInputs
    o.exit = 0 ∧ o.stderr = "✅ x/r.json T\n✅ y/r.json T\n2 of 2 inputs loaded\n" ∧
      o.files.fileList = namesakeInputs.fileList ++ [("out/r.json", "\x7b\n  \"A\": 2\n\x7d")] := by
  decide +kernel

end SchemaTypes.CommandLine
