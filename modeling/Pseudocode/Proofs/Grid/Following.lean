import Pseudocode.Proofs.Grid.Viewing

/-!
# Following a file that is being written

The viewer loads its file again and again.  A file that is just being written cannot be read, and
such a load should not show unless it comes after a row of failures.  But the failures are counted
over the whole history: a load that succeeds does not start the count afresh.  So every seventh
failure clears the board, also when the load before it went well.
-/

namespace Pseudocode
namespace Grid
namespace Viewer

/-- Whether a file cannot be loaded. -/
def fails : File → Bool
  | none => false
  | some text => !(unloaded.fill text).isOk

/-- The viewer after it has loaded its file this many times, each time with another content. -/
def following (files : List File) : Viewer :=
  files.foldl (fun v file => (v.load file).1) unloaded

/-! ## What a load does whatever the viewer -/

/-- A viewer with as many columns as another one and with a given count of failures. -/
def Beside (count : Nat) (v w : Viewer) : Prop :=
  v.columns = w.columns ∧ v.failures = count

/-- Two results that are both faults or both viewers with equally many columns, the first of them
with a given count of failures. -/
def Alike (count : Nat) : Except (Viewer × Fault) Viewer → Except (Viewer × Fault) Viewer → Prop
  | .ok v, .ok w => Beside count v w
  | .error (partway, _), .error _ => partway.failures = count
  | _, _ => False

section

variable {count : Nat} {first second : Except (Viewer × Fault) Viewer} {v w : Viewer}

theorem Alike.bind {next next' : Viewer → Except (Viewer × Fault) Viewer}
    (alike : Alike count first second)
    (rest : ∀ v w : Viewer, Beside count v w → Alike count (next v) (next' w)) :
    Alike count (first >>= next) (second >>= next') := by
  cases first with
  | ok v =>
      cases second with
      | ok w => exact rest v w alike
      | error problem => exact alike.elim
  | error problem =>
      cases second with
      | ok w => exact alike.elim
      | error problem' => exact alike

theorem Alike.keeping {α : Type} (counted : v.failures = count) (result : Except Fault α)
    {next next' : α → Except (Viewer × Fault) Viewer} (rest : ∀ a, Alike count (next a) (next' a)) :
    Alike count (v.keeping result >>= next) (w.keeping result >>= next') := by
  cases result with
  | ok a => exact rest a
  | error fault => exact counted

theorem alike_face (beside : Beside count v w) (number : Json) :
    Alike count (v.face number) (w.face number) := by
  unfold face
  cases number.toWhole with
  | ok degrees => exact beside
  | error fault => exact beside.2

theorem beside_cover (beside : Beside count v w) (row column : Nat) (under : Json) :
    Beside count (v.cover row column under) (w.cover row column under) := by
  unfold cover
  split
  · exact beside
  · split <;> exact beside

theorem alike_loadCell (beside : Beside count v w) (row column : Nat) (cell : Json) :
    Alike count (v.loadCell row column cell) (w.loadCell row column cell) := by
  unfold loadCell
  split
  · exact beside
  split
  · exact beside
  split
  · rename_i number under _ _ _ _
    unfold face
    cases number.toWhole with
    | ok degrees =>
        have shown (facing : Int) : Beside count (Viewer.showTurtle { v with facing } row column)
            (Viewer.showTurtle { w with facing } row column) := beside
        exact beside_cover (shown _) row column under
    | error fault => exact beside.2
  · have shown : Beside count (v.showTurtle row column) (w.showTurtle row column) := beside
    exact alike_face shown _
  · exact beside

theorem alike_loadRow (row column : Nat) (cells : List Json) (beside : Beside count v w) :
    Alike count (loadRow row column cells v) (loadRow row column cells w) := by
  induction cells generalizing column v w with
  | nil => exact beside
  | cons cell rest ih =>
      exact (alike_loadCell beside row column cell).bind fun _ _ beside =>
        ih (column + 1) beside

theorem alike_loadRows (row : Nat) (lines : List Json) (beside : Beside count v w) :
    Alike count (loadRows row lines v) (loadRows row lines w) := by
  induction lines generalizing row v w with
  | nil => exact beside
  | cons cells rest ih =>
      refine Alike.keeping beside.2 cells.indexed fun cells => ?_
      rw [beside.1]
      exact (alike_loadRow row 0 _ beside).bind fun _ _ beside => ih (row + 1) beside

/-- Whether a load fails does not depend on the viewer, and on its way it does not touch the
count. -/
theorem alike_fill (v w : Viewer) (text : String) :
    Alike v.failures (v.fill text) (w.fill text) := by
  refine Alike.keeping rfl (Json.read text) fun grid => ?_
  refine Alike.keeping rfl (shownSize grid) fun size => ?_
  exact Alike.keeping rfl grid.indexed fun lines => alike_loadRows 0 _ ⟨rfl, rfl⟩

end

/-! ## Counting failures -/

/-- How a load ends, and what has become of the count by then. -/
theorem fill_cases (v : Viewer) (text : String) :
    (fails (some text) = false ∧ ∃ loaded, v.fill text = .ok loaded ∧
      loaded.failures = v.failures) ∨
    (fails (some text) = true ∧ ∃ partway fault, v.fill text = .error (partway, fault) ∧
      partway.failures = v.failures) := by
  have alike := alike_fill v unloaded text
  rw [fails]
  cases second : unloaded.fill text with
  | ok other =>
      cases first : v.fill text with
      | ok loaded =>
          rw [first, second] at alike
          exact .inl ⟨rfl, loaded, rfl, alike.2⟩
      | error problem =>
          rw [first, second] at alike
          exact alike.elim
  | error other =>
      cases first : v.fill text with
      | ok loaded =>
          rw [first, second] at alike
          exact alike.elim
      | error problem =>
          rw [first, second] at alike
          exact .inr ⟨rfl, problem.1, problem.2, rfl, alike⟩

/-- One step: a load that fails counts, unless it is one too many, and no other load does. -/
theorem failures_load (v : Viewer) (file : File) :
    (v.load file).1.failures =
      if fails file then if tolerance < v.failures then 0 else v.failures + 1 else v.failures := by
  cases file with
  | none => rfl
  | some text =>
      obtain ⟨succeeds, loaded, filled, same⟩ | ⟨failed, partway, fault, filled, same⟩ :=
        fill_cases v text
      · have loads : v.load (some text) = (loaded, "") := by simp only [load, filled]
        rw [loads, succeeds, same]
        rfl
      · have loads : v.load (some text) = partway.fail fault := by simp only [load, filled]
        rw [loads, if_pos failed, fail, ← same]
        split <;> rfl

/-- Every run: from any count on, seven failures bring it back. -/
theorem failures_foldl (files : List File) {v : Viewer} (least : v.failures ≤ 6) :
    (files.foldl (fun v file => (v.load file).1) v).failures =
      (v.failures + files.countP fails) % 7 := by
  induction files generalizing v with
  | nil =>
      rw [List.foldl_nil, List.countP_nil]
      omega
  | cons file rest ih =>
      have step := failures_load v file
      have still : (v.load file).1.failures ≤ 6 := by
        rw [step, tolerance]
        split
        · split <;> omega
        · exact least
      rw [List.foldl_cons, ih still, List.countP_cons, step, tolerance]
      split
      · split <;> omega
      · rfl

theorem failures_following (files : List File) :
    (following files).failures = files.countP fails % 7 := by
  rw [following, failures_foldl files (Nat.zero_le 6)]
  exact congrArg (· % 7) (Nat.zero_add _)

/-! ## Files that cannot be read -/

theorem fails_of_unreadable {text : String} {fault : Fault}
    (broken : Json.read text = .error fault) : fails (some text) = true := by
  rw [fails, fill, broken]
  rfl

/-- A file that cannot be read is only counted, except that one too many clears the board. -/
theorem load_of_unreadable (v : Viewer) {text : String} {fault : Fault}
    (broken : Json.read text = .error fault) : v.load (some text) = v.fail fault := by
  have filled : v.fill text = .error (v, fault) := by
    rw [fill, broken]
    rfl
  simp only [load, filled]

/-- The last six loads of a history have failed. -/
def Persists (files : List File) : Prop :=
  ∃ earlier recent, files = earlier ++ recent ∧ recent.length = 6 ∧
    ∀ file ∈ recent, fails file = true

/-- After a history, the load of a text prints a message and clears the board only if the last six
loads have failed as well.  Otherwise it prints nothing, and all that is shown stays. -/
def Patient (files : List File) (text : String) : Prop :=
  ∃ next output, (following files).load (some text) = (next, output) ∧
    ((Persists files ∧ output ≠ "" ∧
        next = { (following files).blank with failures := next.failures }) ∨
      (output = "" ∧ next = { following files with failures := next.failures }))

theorem Persists.fails_last {files : List File} {file : File}
    (persists : Persists (files ++ [file])) : fails file = true := by
  obtain ⟨earlier, recent, same, six, failed⟩ := persists
  obtain rfl | ⟨others, last, rfl⟩ := List.eq_nil_or_concat recent
  · cases six
  · rw [List.concat_eq_append] at same failed
    rw [← List.append_assoc] at same
    obtain rfl : file = last := List.singleton_inj.mp (List.append_inj_right' same rfl)
    exact failed file List.mem_concat_self

theorem loadFailure_ne_empty (fault : Fault) : loadFailure fault ≠ "" := by
  intro same
  have lineEnd := (String.append_eq_empty_iff.mp same).2
  exact absurd lineEnd (by decide)

section

variable {files : List File} {text : String} {fault : Fault}

theorem load_following_last (broken : Json.read text = .error fault)
    (last : files.countP fails % 7 = 6) :
    (following files).load (some text) =
      ({ (following files).blank with failures := 0 }, loadFailure fault) := by
  rw [load_of_unreadable _ broken, fail, failures_following, last]
  rfl

theorem load_following_other (broken : Json.read text = .error fault)
    (other : files.countP fails % 7 ≠ 6) :
    (following files).load (some text) =
      ({ following files with failures := files.countP fails % 7 + 1 }, "") := by
  rw [load_of_unreadable _ broken, fail, failures_following, tolerance, if_neg (by omega)]

theorem patient_iff (broken : Json.read text = .error fault) :
    Patient files text ↔ (files.countP fails % 7 = 6 → Persists files) := by
  by_cases last : files.countP fails % 7 = 6
  · have loads := load_following_last broken last
    constructor
    · rintro ⟨next, output, loads', ⟨persists, -⟩ | ⟨rfl, -⟩⟩ -
      · exact persists
      · exact absurd (Prod.mk.inj (loads.symm.trans loads')).2 (loadFailure_ne_empty fault)
    · intro persists
      exact ⟨_, _, loads, .inl ⟨persists last, loadFailure_ne_empty fault, rfl⟩⟩
  · have loads := load_following_other broken last
    exact ⟨fun _ six => absurd six last, fun _ => ⟨_, _, loads, .inr ⟨rfl, rfl⟩⟩⟩

end

/-- A file that cannot be read clears the board exactly if the number of failures before it, over
the whole history, is six more than a multiple of seven; otherwise it is only counted.  So the
viewer is patient exactly if the last six of these failures came right before. -/
theorem load_patient_iff (files : List File) {text : String} {fault : Fault}
    (broken : Json.read text = .error fault) :
    (Patient files text ↔ (files.countP fails % 7 = 6 → Persists files)) ∧
    (files.countP fails % 7 = 6 → (following files).load (some text) =
      ({ (following files).blank with failures := 0 }, loadFailure fault)) ∧
    (files.countP fails % 7 ≠ 6 → (following files).load (some text) =
      ({ following files with failures := files.countP fails % 7 + 1 }, "")) :=
  ⟨patient_iff broken, load_following_last broken, load_following_other broken⟩

/-! ## A file that flickers -/

theorem fails_onWallFile : fails onWallFile = false := by
  obtain ⟨s, same⟩ := isGrid_onWall.exists_scene
  have size : s.rows.length = 2 := by rw [same]; rfl
  have read : Json.read (document onWall).write = .ok (document s.rows) := by
    rw [same]
    exact read_onWallFile
  obtain ⟨next, filled, -⟩ := exists_fill read (by omega) (by decide) unloaded
  rw [onWallFile, fails, filled]
  rfl

theorem read_empty : Json.read "" = .error (.malformed ⟨.value, 1, 1, 0⟩) := rfl

/-- A history in which a file is found without its content six times in a row. -/
def missing : List File :=
  onWallFile :: List.replicate 6 (some "")

theorem countP_missing : missing.countP fails = 6 := by
  simp [missing, fails_onWallFile, fails_of_unreadable read_empty]

theorem load_patient_iff_missing :
    Json.read "" = .error (.malformed ⟨.value, 1, 1, 0⟩) ∧ missing.countP fails % 7 = 6 ∧
      Patient missing "" ∧ (following missing).load (some "") =
        ({ (following missing).blank with failures := 0 },
          loadFailure (.malformed ⟨.value, 1, 1, 0⟩)) := by
  have last : missing.countP fails % 7 = 6 := by rw [countP_missing]
  obtain ⟨patient, cleared, -⟩ := load_patient_iff missing read_empty
  refine ⟨read_empty, last, patient.mpr fun _ => ?_, cleared last⟩
  refine ⟨[onWallFile], List.replicate 6 (some ""), rfl, rfl, fun file member => ?_⟩
  rw [List.eq_of_mem_replicate member]
  exact fails_of_unreadable read_empty

/-- The next load after a success is not the seventh failure in a row, but the board is cleared. -/
theorem flicker_not_patient :
    fails onWallFile = false ∧ Json.read "" = .error (.malformed ⟨.value, 1, 1, 0⟩) ∧
      (following (missing ++ [onWallFile])).load (some "") =
        ({ (following (missing ++ [onWallFile])).blank with failures := 0 },
          loadFailure (.malformed ⟨.value, 1, 1, 0⟩)) ∧
      ¬ Patient (missing ++ [onWallFile]) "" := by
  have last : (missing ++ [onWallFile]).countP fails % 7 = 6 := by
    rw [List.countP_append, countP_missing, List.countP_singleton, fails_onWallFile]
    rfl
  refine ⟨fails_onWallFile, read_empty, load_following_last read_empty last, fun patient => ?_⟩
  have failed := ((patient_iff read_empty).mp patient last).fails_last
  cases failed.symm.trans fails_onWallFile

end Viewer
end Grid
end Pseudocode
