import SfcCheck.FileTree

/-!
# The nearest file of a name

A file is searched for in a directory and then in the directories above it. The search finds a
file just if it is the nearest one: no directory between its own and the one where the search
starts holds a file of the name.
-/

namespace SfcCheck.FileTree

/-- The file of a name in the directory with the first `n` names. -/
def fileAbove (names : List String) (name : String) (n : Nat) : Path :=
  (Path.ofNames (names.take n)).join (.ofText name)

/-- A file in the directory with at most `n` of the names, with none between it and that one. -/
def IsNearestUpTo (tree : FileTree) (names : List String) (name : String) (n : Nat)
    (path : Path) : Prop :=
  ∃ k ≤ n, path = fileAbove names name k ∧ tree.isFile path = .ok true ∧
    ∀ m, k < m → m ≤ n → tree.isFile (fileAbove names name m) = .ok false

/-- The nearest file of a name, from a directory or from the working directory upward. -/
def IsNearest (tree : FileTree) (name : String) (start? : Option Path) (path : Path) : Prop :=
  ∃ directory, tree.resolve (start?.getD ⟨.here, []⟩) = .ok directory ∧
    IsNearestUpTo tree directory.names name directory.names.length path

variable {tree : FileTree} {name : String} {names : List String} {path : Path} {n : Nat}

theorem go_of_file (h : tree.isFile (fileAbove names name n) = .ok true) :
    findUpward.go tree (.ofText name) n names = .ok (some (fileAbove names name n)) := by
  cases n <;> (rw [fileAbove] at h; rw [findUpward.go, h]; rfl)

theorem go_of_error {e : FileError} (h : tree.isFile (fileAbove names name n) = .error e) :
    findUpward.go tree (.ofText name) n names = .error e := by
  cases n <;> (rw [fileAbove] at h; rw [findUpward.go, h]; rfl)

theorem go_zero (h : tree.isFile (fileAbove names name 0) = .ok false) :
    findUpward.go tree (.ofText name) 0 names = .ok none := by
  rw [fileAbove] at h
  rw [findUpward.go, h]
  rfl

theorem go_succ (h : tree.isFile (fileAbove names name (n + 1)) = .ok false) :
    findUpward.go tree (.ofText name) (n + 1) names =
      findUpward.go tree (.ofText name) n names := by
  rw [fileAbove] at h
  conv =>
    lhs
    rw [findUpward.go, h]
  rfl

/-- Unless no file is there, the directory where a search stands decides. -/
theorem isNearestUpTo_iff_of_ne (h : tree.isFile (fileAbove names name n) ≠ .ok false) :
    IsNearestUpTo tree names name n path ↔
      path = fileAbove names name n ∧ tree.isFile path = .ok true := by
  constructor
  · rintro ⟨k, hk, hpath, hfile, hnone⟩
    obtain rfl : k = n := by
      by_cases hlt : k < n
      · exact absurd (hnone n hlt (Nat.le_refl _)) h
      · omega
    exact ⟨hpath, hfile⟩
  · rintro ⟨hpath, hfile⟩
    exact ⟨n, Nat.le_refl _, hpath, hfile, fun m hlt hle => absurd hle (Nat.not_le.mpr hlt)⟩

theorem isNearestUpTo_zero (h : tree.isFile (fileAbove names name 0) = .ok false) :
    ¬ IsNearestUpTo tree names name 0 path := by
  rintro ⟨k, hk, rfl, hfile, -⟩
  rw [Nat.le_zero.mp hk, h] at hfile
  cases hfile

theorem isNearestUpTo_succ (h : tree.isFile (fileAbove names name (n + 1)) = .ok false) :
    IsNearestUpTo tree names name (n + 1) path ↔ IsNearestUpTo tree names name n path := by
  constructor
  · rintro ⟨k, hk, rfl, hfile, hnone⟩
    have hne : k ≠ n + 1 := by
      rintro rfl
      rw [h] at hfile
      cases hfile
    exact ⟨k, by omega, rfl, hfile, fun m hlt hle => hnone m hlt (by omega)⟩
  · rintro ⟨k, hk, hpath, hfile, hnone⟩
    refine ⟨k, by omega, hpath, hfile, fun m hlt hle => ?_⟩
    rcases Nat.lt_or_eq_of_le hle with hlt' | rfl
    · exact hnone m hlt (by omega)
    · exact h

theorem go_eq_some_iff : findUpward.go tree (.ofText name) n names = .ok (some path) ↔
    IsNearestUpTo tree names name n path := by
  have hdecides {n : Nat} (h : tree.isFile (fileAbove names name n) ≠ .ok false) :
      findUpward.go tree (.ofText name) n names = .ok (some path) ↔
        IsNearestUpTo tree names name n path := by
    rw [isNearestUpTo_iff_of_ne h]
    cases hfile : tree.isFile (fileAbove names name n) with
    | error e =>
        rw [go_of_error hfile]
        refine ⟨fun hgo => (by cases hgo), ?_⟩
        rintro ⟨rfl, hfile'⟩
        rw [hfile] at hfile'
        cases hfile'
    | ok found =>
        cases found with
        | false => exact absurd hfile h
        | true =>
            rw [go_of_file hfile]
            constructor
            · rintro hgo
              cases hgo
              exact ⟨rfl, hfile⟩
            · rintro ⟨rfl, -⟩
              rfl
  induction n with
  | zero =>
      by_cases h : tree.isFile (fileAbove names name 0) = .ok false
      · rw [go_zero h]
        exact ⟨fun hgo => (by cases hgo), fun hnear => absurd hnear (isNearestUpTo_zero h)⟩
      · exact hdecides h
  | succ n ih =>
      by_cases h : tree.isFile (fileAbove names name (n + 1)) = .ok false
      · rw [go_succ h]
        exact ih.trans (isNearestUpTo_succ h).symm
      · exact hdecides h

/-- What a search finds is the nearest file. -/
theorem findNearest_eq_some_iff {start? : Option Path} :
    tree.findNearest name start? = .ok (some path) ↔ IsNearest tree name start? path := by
  rw [findNearest, IsNearest]
  cases tree.resolve (start?.getD ⟨.here, []⟩) with
  | error e =>
      refine ⟨fun h => (by cases h), ?_⟩
      rintro ⟨directory, hdirectory, -⟩
      cases hdirectory
  | ok directory =>
      refine go_eq_some_iff.trans ⟨fun h => ⟨directory, rfl, h⟩, ?_⟩
      rintro ⟨directory, hdirectory, h⟩
      cases hdirectory
      exact h

end SfcCheck.FileTree
