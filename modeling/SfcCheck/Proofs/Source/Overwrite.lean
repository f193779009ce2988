import SfcCheck.Proofs.Source.Places

/-!
# Writing a file anew

Other bytes in a file leave every place, every link and every directory as it is. So every path
leads to where it led before, the same files are found, and nothing changes but what is read from
that file, by whatever path it is reached (`read_overwrite`).
-/

namespace SfcCheck

/-! ## The nodes of a tree -/

namespace Node

/-- What can be told of a node without opening it. -/
inductive Shape where
  | file
  | link (target : String)
  | directory

def shape : Node → Shape
  | file _ => .file
  | link target => .link target
  | directory _ => .directory

variable {n new : Node} {place names : List String} {name : String} {content bytes : List UInt8}

/-- What a directory has under a name stands at the place of that name in it. -/
theorem at?_snoc {entries : Table Node} (h : n.at? names = some (.directory entries)) :
    n.at? (names ++ [name]) = Table.get? name entries := by
  rw [at?_append, h]
  cases hget : Table.get? name entries <;> simp [at?, child?, hget]

/-- What is put below a directory goes into the child of that name. -/
theorem exists_child (h : n.at? (name :: place) = some new) :
    ∃ entries child, n = .directory entries ∧ Table.get? name entries = some child ∧
      child.at? place = some new ∧ ∀ m, n.insert (name :: place) m =
        .directory (Table.put name (child.insert place m) entries) := by
  obtain ⟨child, hchild, hplace⟩ := Option.bind_eq_some_iff.mp h
  cases n with
  | file | link => cases hchild
  | directory entries =>
      have hget : Table.get? name entries = some child := hchild
      refine ⟨entries, child, rfl, hget, hplace, fun m => ?_⟩
      rw [insert, hget]
      rfl

theorem at?_insert_self (h : n.at? place = some new) (m : Node) :
    (n.insert place m).at? place = some m := by
  induction place generalizing n with
  | nil => rfl
  | cons name place ih =>
      obtain ⟨entries, child, rfl, -, hplace, hinsert⟩ := exists_child h
      rw [hinsert, at?, child?, Table.get?_put, if_pos rfl]
      exact ih hplace

/-- A name in a directory into which something was put leads to the changed child or to what it led
to before. -/
theorem at?_put (entries : Table Node) (m : Node) (x : String) (names : List String) :
    (directory (Table.put name m entries)).at? (x :: names) =
      if x = name then m.at? names else (directory entries).at? (x :: names) := by
  rw [at?, child?, Table.get?_put]
  split <;> rfl

theorem shape_at?_insert (h : n.at? place = some (.file content)) (bytes : List UInt8)
    (names : List String) :
    ((n.insert place (.file bytes)).at? names).map shape = (n.at? names).map shape := by
  induction place generalizing n names with
  | nil =>
      cases h
      cases names <;> rfl
  | cons name place ih =>
      obtain ⟨entries, child, rfl, hget, hplace, hinsert⟩ := exists_child h
      rw [hinsert]
      cases names with
      | nil => rfl
      | cons x names =>
          rw [at?_put]
          split
          · next hx =>
              rw [ih hplace, at?, child?, hx, hget]
              rfl
          · rfl

/-- Another file keeps its content. -/
theorem at?_insert_of_ne (h : n.at? place = some (.file content)) (hne : names ≠ place)
    (hnames : n.at? names = some (.file bytes)) (m : Node) :
    (n.insert place m).at? names = some (.file bytes) := by
  induction place generalizing n names with
  | nil =>
      cases h
      cases names with
      | nil => exact absurd rfl hne
      | cons => cases hnames
  | cons name place ih =>
      obtain ⟨entries, child, rfl, hget, hplace, hinsert⟩ := exists_child h
      rw [hinsert]
      cases names with
      | nil => cases hnames
      | cons x names =>
          rw [at?_put]
          split
          · next hx =>
              subst hx
              rw [at?, child?, hget] at hnames
              exact ih hplace (fun heq => hne (heq ▸ rfl)) hnames
          · exact hnames

theorem entriesLinkCount_put {entries : Table Node} {child m : Node}
    (hget : Table.get? name entries = some child) (hm : m.linkCount = child.linkCount) :
    entriesLinkCount (Table.put name m entries) = entriesLinkCount entries := by
  induction entries with
  | nil => cases hget
  | cons e entries ih =>
      obtain ⟨key, old⟩ := e
      rw [Table.get?] at hget
      rw [Table.put]
      split at hget
      · next hkey =>
          cases hget
          rw [if_pos hkey, entriesLinkCount, entriesLinkCount, hm]
      · next hkey => rw [if_neg hkey, entriesLinkCount, entriesLinkCount, ih hget]

theorem linkCount_insert (h : n.at? place = some (.file content)) (bytes : List UInt8) :
    (n.insert place (.file bytes)).linkCount = n.linkCount := by
  induction place generalizing n with
  | nil =>
      cases h
      rfl
  | cons name place ih =>
      obtain ⟨entries, child, rfl, hget, hplace, hinsert⟩ := exists_child h
      rw [hinsert, linkCount, linkCount]
      exact entriesLinkCount_put hget (ih hplace)

end Node

/-! ## Following paths -/

namespace FileTree

open Node (shape)

variable {top top' n : Node} {links : Nat} {place names reached : List String}

/-- At the same places there are things of the same shape. -/
def SameShapes (top top' : Node) : Prop :=
  ∀ names, (top'.at? names).map shape = (top.at? names).map shape

namespace SameShapes

variable (h : SameShapes top top')

include h

theorem symm : SameShapes top' top := fun names => (h names).symm

theorem at?_eq_none (hat : top.at? names = none) : top'.at? names = none := by
  have hshape := h names
  rw [hat] at hshape
  simpa using hshape

theorem exists_at? (hat : top.at? names = some n) :
    ∃ n', top'.at? names = some n' ∧ n'.shape = n.shape := by
  have hshape := h names
  rwa [hat, Option.map_some, Option.map_eq_some_iff] at hshape

theorem exists_directory {entries : Table Node} (hat : top.at? names = some (.directory entries)) :
    ∃ entries', top'.at? names = some (.directory entries') := by
  obtain ⟨n, hn, hshape⟩ := h.exists_at? hat
  cases n with
  | directory entries' => exact ⟨entries', hn⟩
  | file | link => cases hshape

theorem at?_link {target : String} (hat : top.at? names = some (.link target)) :
    top'.at? names = some (.link target) := by
  obtain ⟨n, hn, hshape⟩ := h.exists_at? hat
  cases n with
  | link target' =>
      cases hshape
      exact hn
  | file | directory => cases hshape

section Children

variable {name : String} {entries entries' : Table Node}
  (hat : top.at? names = some (.directory entries))
  (hat' : top'.at? names = some (.directory entries'))

include hat hat'

theorem get?_eq_none (hget : Table.get? name entries = none) :
    Table.get? name entries' = none := by
  rw [← Node.at?_snoc hat']
  apply h.at?_eq_none
  rw [Node.at?_snoc hat, hget]

theorem exists_get? (hget : Table.get? name entries = some n) :
    ∃ n', Table.get? name entries' = some n' ∧ n'.shape = n.shape := by
  rw [← Node.at?_snoc hat']
  apply h.exists_at?
  rw [Node.at?_snoc hat, hget]

theorem get?_link {target : String} (hget : Table.get? name entries = some (.link target)) :
    Table.get? name entries' = some (.link target) := by
  rw [← Node.at?_snoc hat']
  apply h.at?_link
  rw [Node.at?_snoc hat, hget]

end Children

/-- Names lead to the same place, or nowhere for the same reason. -/
theorem walk_fst (links : Nat) (place names : List String) :
    (walk top' links place names).map Prod.fst = (walk top links place names).map Prod.fst := by
  -- on the walk in the first tree; the other one takes the same step each time
  fun_induction walk top links place names with
  | case1 links place n hat =>
      obtain ⟨n', hat', -⟩ := h.exists_at? hat
      rw [walk, hat']
      rfl
  | case2 links place hat => rw [walk, h.at?_eq_none hat]
  | case3 links place names entries hat ih | case4 links place names entries hat hne ih =>
      obtain ⟨entries', hat'⟩ := h.exists_directory hat
      rw [walk, hat']
      exact ih
  | case5 links place name names entries hat _ _ hlong =>
      obtain ⟨entries', hat'⟩ := h.exists_directory hat
      rw [walk_of_long hat' hlong]
  | case6 links place name names entries hat hhere habove hfits hget =>
      obtain ⟨entries', hat'⟩ := h.exists_directory hat
      rw [walk, hat']
      simp only [hhere, habove, hfits, if_false, h.get?_eq_none hat hat' hget]
  | case7 place name names entries hat hhere habove hfits target hget =>
      obtain ⟨entries', hat'⟩ := h.exists_directory hat
      rw [walk, hat']
      simp only [hhere, habove, hfits, if_false, h.get?_link hat hat' hget]
  | case8 place name names entries hat hhere habove hfits target hget links ih =>
      obtain ⟨entries', hat'⟩ := h.exists_directory hat
      rw [walk, hat']
      simp only [hhere, habove, hfits, if_false, h.get?_link hat hat' hget]
      exact ih
  | case9 links place name names entries hat hhere habove hfits child hlink hget ih =>
      obtain ⟨entries', hat'⟩ := h.exists_directory hat
      obtain ⟨child', hget', hshape⟩ := h.exists_get? hat hat' hget
      rw [walk, hat']
      simp only [hhere, habove, hfits, if_false, hget']
      cases child' with
      | file | directory => exact ih
      | link target =>
          -- the child here is a link as well
          cases child with
          | link target' => exact absurd rfl (hlink target')
          | file | directory => cases hshape
  | case10 links place name names hat =>
      rw [walk]
      split
      · next entries' hat' =>
          obtain ⟨entries, hat''⟩ := h.symm.exists_directory hat'
          exact absurd hat'' (hat entries)
      · rfl

/-- Links are met in the same places. -/
theorem follow_eq (here : List String) (depth : Nat) (met : Met) (place : Path)
    (names : List String) :
    follow top' here depth met place names = follow top here depth met place names := by
  fun_induction follow top here depth met place names with
  | case1 => rw [follow]
  | case2 depth met place name names hhere ih =>
      rw [follow, if_pos hhere]
      exact ih
  | case3 depth met place names hhere ih =>
      rw [follow, if_neg hhere, if_pos rfl]
      exact ih
  | case4 depth met place name names hhere habove next target hat first known hmet ih =>
      rw [follow, if_neg hhere, if_neg habove]
      simp only [next] at hat hmet
      simp only [h.at?_link hat, hmet]
      exact ih
  | case5 depth met place name names hhere habove next target hat first hmet =>
      rw [follow, if_neg hhere, if_neg habove]
      simp only [next] at hat hmet
      simp only [h.at?_link hat, hmet, next]
  | case6 met place name names hhere habove next target hat hmet =>
      rw [follow, if_neg hhere, if_neg habove]
      simp only [next] at hat hmet
      simp only [h.at?_link hat, hmet, next]
  | case7 met place name names hhere habove next target hat hmet depth known met' hknown ih' ih =>
      rw [hknown] at ih'
      rw [follow, if_neg hhere, if_neg habove]
      simp only [next] at hat hmet ih'
      simp only [h.at?_link hat, hmet, ih']
      exact ih
  | case8 met place name names hhere habove next target hat hmet depth known met' hknown ih =>
      rw [hknown] at ih
      rw [follow, if_neg hhere, if_neg habove]
      simp only [next] at hat hmet ih
      simp only [h.at?_link hat, hmet, ih]
  | case9 depth met place name names hhere habove next hat ih =>
      rw [follow, if_neg hhere, if_neg habove]
      -- nor is it a link here that is met
      simp only
      split
      · next target hat' => exact absurd (h.symm.at?_link hat') (hat target)
      · exact ih

end SameShapes

/-- What a walk reaches stands at the place that it reaches. -/
theorem at?_of_walk (h : walk top links place names = .ok (reached, n)) :
    top.at? reached = some n := by
  fun_induction walk top links place names with
  | case1 links place m hat =>
      cases h
      exact hat
  | case2 | case5 | case6 | case7 | case10 => cases h
  | case3 _ _ _ _ _ ih | case4 _ _ _ _ _ _ ih => exact ih h
  | case8 _ _ _ _ _ _ _ _ _ _ _ ih => exact ih h
  | case9 _ _ _ _ _ _ _ _ _ _ _ _ ih => exact ih h

/-- The place that a path leads to. -/
def placeOf (t : FileTree) (p : Path) : Except FileError.Cause (List String) :=
  if pathLimit < p.text.utf8ByteSize then .error .nameTooLong
  else (·.1) <$> walk t.top linkLimit (t.start p) p.names

variable {t t' : FileTree} {p : Path} {content : List UInt8} {cause : FileError.Cause}

theorem lookup_of_placeOf_error (h : t.placeOf p = .error cause) : t.lookup p = .error cause := by
  rw [placeOf] at h
  rw [lookup]
  split at h
  · next hlong =>
      cases h
      rw [if_pos hlong]
  · next hfits =>
      rw [if_neg hfits]
      cases hwalk : walk t.top linkLimit (t.start p) p.names with
      | error cause' =>
          rw [hwalk] at h
          cases h
          rfl
      | ok reached =>
          rw [hwalk] at h
          cases h

/-- What a path leads to is what stands at its place. -/
theorem exists_lookup_of_placeOf (h : t.placeOf p = .ok reached) :
    ∃ n, t.lookup p = .ok n ∧ t.top.at? reached = some n := by
  rw [placeOf] at h
  rw [lookup]
  split at h
  · cases h
  · next hfits =>
      rw [if_neg hfits]
      cases hwalk : walk t.top linkLimit (t.start p) p.names with
      | error cause =>
          rw [hwalk] at h
          cases h
      | ok found =>
          obtain ⟨place, n⟩ := found
          rw [hwalk] at h
          cases h
          exact ⟨n, rfl, at?_of_walk hwalk⟩

theorem exists_placeOf (h : t.lookup p = .ok n) :
    ∃ reached, t.placeOf p = .ok reached ∧ t.top.at? reached = some n := by
  cases hplace : t.placeOf p with
  | error cause =>
      rw [lookup_of_placeOf_error hplace] at h
      cases h
  | ok reached =>
      obtain ⟨m, hm, hat⟩ := exists_lookup_of_placeOf hplace
      rw [h] at hm
      cases hm
      exact ⟨reached, rfl, hat⟩

theorem StandsAt.placeOf_eq (h : t.StandsAt names n) : t.placeOf (.ofNames names) = .ok names := by
  rw [placeOf, if_neg (Nat.not_lt.mpr h.fits)]
  show (·.1) <$> walk t.top linkLimit [] names = _
  rw [walk_of_at? (by exact h.at?) h.areNames h.ne_link]
  rfl

theorem read_eq_ok_iff :
    t.read p = .ok content ↔ hasNull p = false ∧ t.lookup p = .ok (.file content) := by
  rw [read]
  cases hasNull p with
  | true => simp
  | false =>
      cases hlookup : t.lookup p with
      | error cause => simp
      | ok n => cases n <;> simp

/-! ## Two trees of one shape -/

/-- Two trees that differ at most in what their files hold. -/
structure Alike (t t' : FileTree) : Prop where
  here : t'.here = t.here
  shapes : SameShapes t.top t'.top
  linkCount : t'.top.linkCount = t.top.linkCount

namespace Alike

variable (h : t.Alike t') (p : Path)

include h

/-- A path leads to the same place, or nowhere for the same reason. -/
theorem placeOf_eq : t'.placeOf p = t.placeOf p := by
  have hstart : t'.start p = t.start p := by rw [start, start, h.here]
  rw [placeOf, placeOf, hstart]
  split
  · rfl
  · exact h.shapes.walk_fst ..

theorem lookup_cases :
    (∃ cause, t.lookup p = .error cause ∧ t'.lookup p = .error cause) ∨
      ∃ reached n n', t.placeOf p = .ok reached ∧ t.lookup p = .ok n ∧ t'.lookup p = .ok n' ∧
        t.top.at? reached = some n ∧ t'.top.at? reached = some n' ∧ n'.shape = n.shape := by
  have hplace' := h.placeOf_eq p
  cases hplace : t.placeOf p with
  | error cause =>
      rw [hplace] at hplace'
      exact .inl ⟨cause, lookup_of_placeOf_error hplace, lookup_of_placeOf_error hplace'⟩
  | ok reached =>
      rw [hplace] at hplace'
      obtain ⟨n, hn, hat⟩ := exists_lookup_of_placeOf hplace
      obtain ⟨n', hn', hat'⟩ := exists_lookup_of_placeOf hplace'
      have hshape := h.shapes reached
      rw [hat, hat'] at hshape
      exact .inr ⟨reached, n, n', rfl, hn, hn', hat, hat', Option.some.inj hshape⟩

theorem isFile_eq : t'.isFile p = t.isFile p := by
  rw [isFile, isFile, lookup?, lookup?]
  split
  · rfl
  obtain ⟨cause, hcause, hcause'⟩ | ⟨reached, n, n', -, hn, hn', -, -, hshape⟩ := h.lookup_cases p
  · rw [hcause, hcause']
  · rw [hn, hn']
    cases n <;> cases n' <;> first | rfl | cases hshape

theorem target_eq : t'.target p = t.target p := by
  rw [target, target, h.here, h.linkCount, h.shapes.follow_eq]

theorem resolve_eq : t'.resolve p = t.resolve p := by
  rw [resolve, resolve, h.target_eq]
  obtain ⟨cause, hcause, hcause'⟩ | ⟨reached, n, n', -, hn, hn', -⟩ :=
    h.lookup_cases (.ofNames (t.target p))
  · simp only [hcause, hcause']
  · simp only [hn, hn']

theorem findUpward_eq (name : Path) (names : List String) :
    t'.findUpward name names = t.findUpward name names := by
  rw [findUpward, findUpward]
  induction names.length with
  | zero => rw [findUpward.go, findUpward.go, h.isFile_eq]
  | succ n ih => rw [findUpward.go, findUpward.go, h.isFile_eq, ih]

/-- The same files are found. -/
theorem findNearest_eq (name : String) (from? : Option Path) :
    t'.findNearest name from? = t.findNearest name from? := by
  rw [findNearest, findNearest, h.resolve_eq]
  simp only [h.findUpward_eq]

end Alike

/-! ## Other content -/

/-- The tree with other content in the file that a path leads to. -/
def overwrite (t : FileTree) (p : Path) (content : List UInt8) : FileTree :=
  match t.placeOf p with
  | .ok place => { t with top := t.top.insert place (.file content) }
  | .error _ => t

theorem exists_overwrite (hread : t.read p = .ok content) :
    ∃ place, t.placeOf p = .ok place ∧ t.top.at? place = some (.file content) ∧
      ∀ new, t.overwrite p new = { t with top := t.top.insert place (.file new) } := by
  obtain ⟨place, hplace, hat⟩ := exists_placeOf (read_eq_ok_iff.mp hread).2
  refine ⟨place, hplace, hat, fun new => ?_⟩
  rw [overwrite, hplace]

theorem alike_overwrite (hread : t.read p = .ok content) (new : List UInt8) :
    t.Alike (t.overwrite p new) := by
  obtain ⟨place, -, hat, hoverwrite⟩ := exists_overwrite hread
  rw [hoverwrite]
  exact ⟨rfl, Node.shape_at?_insert hat new, Node.linkCount_insert hat new⟩

/-- What is read from the file is its new content. -/
theorem read_overwrite_self (hread : t.read p = .ok content) (new : List UInt8) :
    (t.overwrite p new).read p = .ok new := by
  obtain ⟨place, hplace, hat, hoverwrite⟩ := exists_overwrite hread
  have hplace' := (alike_overwrite hread new).placeOf_eq p
  obtain ⟨n, hn, hat'⟩ := exists_lookup_of_placeOf (hplace'.trans hplace)
  apply read_eq_ok_iff.mpr
  constructor
  · exact (read_eq_ok_iff.mp hread).1
  · rw [hoverwrite, Node.at?_insert_self hat] at hat'
    cases hat'
    exact hn

/-- What is read by any path is the file, or it is as before. -/
theorem read_overwrite (hread : t.read p = .ok content) (new : List UInt8) (q : Path) :
    t.read q = .ok content ∧ (t.overwrite p new).read q = .ok new ∨
      (t.overwrite p new).read q = t.read q := by
  obtain ⟨place, hplace, hat, hoverwrite⟩ := exists_overwrite hread
  cases hnull : hasNull q with
  | true =>
      right
      rw [read, read, hnull]
      rfl
  | false =>
  obtain ⟨cause, hcause, hcause'⟩ | ⟨reached, n, n', hreached, hn, hn', hn_at, hn_at', hshape⟩ :=
    (alike_overwrite hread new).lookup_cases q
  · right
    rw [read, read, hcause, hcause']
  rw [hoverwrite] at hn_at'
  by_cases heq : reached = place
  · left
    subst heq
    rw [hat] at hn_at
    rw [Node.at?_insert_self hat] at hn_at'
    cases hn_at
    cases hn_at'
    exact ⟨read_eq_ok_iff.mpr ⟨hnull, hn⟩, read_eq_ok_iff.mpr ⟨hnull, hn'⟩⟩
  · right
    rw [read, read, hn, hn']
    cases n with
    | file bytes =>
        rw [Node.at?_insert_of_ne hat heq hn_at] at hn_at'
        cases hn_at'
        rfl
    | link | directory => cases n' <;> first | rfl | cases hshape

end FileTree

end SfcCheck
