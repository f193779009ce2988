import Mathlib.Data.List.Nodup
import SfcCheck.FileTree

/-!
# The places below a directory

Where the names in each directory are distinct, the places are those that names lead to without a
link on the way, and each of them is listed once. A search looks at the same places, some of them
twice.
-/

namespace SfcCheck.Node

/-- In no directory does a name stand twice. -/
inductive Distinct : Node → Prop
  | file (content : List UInt8) : Distinct (.file content)
  | link (target : String) : Distinct (.link target)
  | directory {entries : Table Node} : entries.keys.Nodup → (∀ e ∈ entries, Distinct e.2) →
      Distinct (.directory entries)

theorem distinct_directory_iff {entries : Table Node} :
    (directory entries).Distinct ↔ entries.keys.Nodup ∧ ∀ e ∈ entries, e.2.Distinct := by
  constructor
  · intro h
    cases h with
    | directory hkeys hentries => exact ⟨hkeys, hentries⟩
  · rintro ⟨hkeys, hentries⟩
    exact .directory hkeys hentries

/-! ## What is listed -/

theorem mem_entriesPlaces {entries : Table Node} {names : List String} :
    names ∈ entriesPlaces entries ↔
      ∃ e ∈ entries, names = [e.1] ∨ ∃ rest ∈ e.2.places, names = e.1 :: rest := by
  induction entries with
  | nil => simp [entriesPlaces]
  | cons e entries ih => simp [entriesPlaces, ih, or_assoc, eq_comm]

theorem mem_places_directory {entries : Table Node} {names : List String} :
    names ∈ (directory entries).places ↔
      ∃ e ∈ entries, names = [e.1] ∨ ∃ rest ∈ e.2.places, names = e.1 :: rest := by
  rw [places, mem_entriesPlaces]

theorem mem_visits_directory {isSought : String → Bool} {entries : Table Node}
    {names : List String} :
    names ∈ (directory entries).visits isSought ↔
      (∃ e ∈ entries, isSought e.1 = true ∧ names = [e.1]) ∨
        ∃ e ∈ entries, names = [e.1] ∨ ∃ rest ∈ e.2.visits isSought, names = e.1 :: rest := by
  have hentries : names ∈ entriesVisits isSought entries ↔
      ∃ e ∈ entries, names = [e.1] ∨ ∃ rest ∈ e.2.visits isSought, names = e.1 :: rest := by
    induction entries with
    | nil => simp [entriesVisits]
    | cons e entries ih => simp [entriesVisits, ih, or_assoc, eq_comm]
  rw [visits, List.mem_append, hentries]
  apply or_congr_left
  simp only [List.mem_map, List.mem_filter]
  constructor
  · rintro ⟨_, ⟨⟨e, he, rfl⟩, hsought⟩, rfl⟩
    exact ⟨e, he, hsought, rfl⟩
  · rintro ⟨e, he, hsought, rfl⟩
    exact ⟨e.1, ⟨⟨e, he, rfl⟩, hsought⟩, rfl⟩

/-- What is listed lies below, not at the directory itself. -/
theorem ne_nil_of_mem_places {n : Node} {names : List String} (h : names ∈ n.places) :
    names ≠ [] := by
  cases n with
  | file => cases h
  | link => cases h
  | directory entries =>
      obtain ⟨e, -, rfl | ⟨rest, -, rfl⟩⟩ := mem_places_directory.mp h
      · exact List.cons_ne_nil _ _
      · exact List.cons_ne_nil _ _

theorem at?_append (n : Node) (names rest : List String) :
    n.at? (names ++ rest) = (n.at? names).bind (at? rest) := by
  induction names generalizing n with
  | nil => rfl
  | cons name names ih =>
      rw [List.cons_append, at?, at?, Option.bind_assoc]
      exact congrArg _ (funext ih)

namespace Distinct

variable {n : Node}

/-- Below a node whose names are distinct they are distinct as well. -/
theorem of_at? {m : Node} {names : List String} (h : n.Distinct) (hat : n.at? names = some m) :
    m.Distinct := by
  induction names generalizing n with
  | nil => exact Option.some.inj hat ▸ h
  | cons name names ih =>
      obtain ⟨child, hchild, hrest⟩ := Option.bind_eq_some_iff.mp hat
      cases h with
      | file => cases hchild
      | link => cases hchild
      | directory _ hentries => exact ih (hentries _ (Table.mem_of_get? hchild)) hrest

/-- A place is listed just if names lead to it. -/
theorem mem_places_iff (h : n.Distinct) (names : List String) :
    names ∈ n.places ↔ names ≠ [] ∧ (n.at? names).isSome = true := by
  induction h generalizing names with
  | file => cases names <;> simp [places, at?, child?]
  | link => cases names <;> simp [places, at?, child?]
  | @directory entries hkeys _ ih =>
      rw [mem_places_directory]
      constructor
      · rintro ⟨e, he, rfl | ⟨rest, hrest, rfl⟩⟩
        · simp [at?, child?, Table.get?_of_mem hkeys he]
        · have hat := ((ih e he rest).mp hrest).2
          simp [at?, child?, Table.get?_of_mem hkeys he, hat]
      · rintro ⟨hne, hat⟩
        obtain ⟨name, rest, rfl⟩ := List.exists_cons_of_ne_nil hne
        cases hget : Table.get? name entries with
        | none => simp [at?, child?, hget] at hat
        | some child =>
            have hmem : (name, child) ∈ entries := Table.mem_of_get? hget
            refine ⟨_, hmem, ?_⟩
            by_cases hrest : rest = []
            · exact .inl (congrArg _ hrest)
            · have hchild : (child.at? rest).isSome = true := by
                simpa [at?, child?, hget] using hat
              exact .inr ⟨rest, (ih _ hmem rest).mpr ⟨hrest, hchild⟩, rfl⟩

/-- A search looks at every place, and at nothing else. -/
theorem mem_visits_iff (h : n.Distinct) (isSought : String → Bool) (names : List String) :
    names ∈ n.visits isSought ↔ names ∈ n.places := by
  induction h generalizing names with
  | file => simp [places, visits]
  | link => simp [places, visits]
  | directory _ _ ih =>
      rw [mem_visits_directory, mem_places_directory]
      constructor
      · rintro (⟨e, he, -, rfl⟩ | ⟨e, he, rfl | ⟨rest, hrest, rfl⟩⟩)
        · exact ⟨e, he, .inl rfl⟩
        · exact ⟨e, he, .inl rfl⟩
        · exact ⟨e, he, .inr ⟨rest, (ih e he rest).mp hrest, rfl⟩⟩
      · rintro ⟨e, he, rfl | ⟨rest, hrest, rfl⟩⟩
        · exact .inr ⟨e, he, .inl rfl⟩
        · exact .inr ⟨e, he, .inr ⟨rest, (ih e he rest).mpr hrest, rfl⟩⟩

/-- No place is listed twice. -/
theorem nodup_places (h : n.Distinct) : n.places.Nodup := by
  induction h with
  | file => exact List.nodup_nil
  | link => exact List.nodup_nil
  | @directory entries hkeys hentries ih =>
      show (entriesPlaces entries).Nodup
      induction entries with
      | nil => exact List.nodup_nil
      | cons e entries ihentries =>
          obtain ⟨hnew, hkeys⟩ := List.nodup_cons.mp hkeys
          have hbelow : (e.2.places.map (e.1 :: ·)).Nodup :=
            (ih e (.head _)).map fun _ _ => List.tail_eq_of_cons_eq
          have hfirst : ([e.1] :: e.2.places.map (e.1 :: ·)).Nodup := by
            refine List.nodup_cons.mpr ⟨?_, hbelow⟩
            intro hmem
            obtain ⟨rest, hrest, hnil⟩ := List.mem_map.mp hmem
            exact ne_nil_of_mem_places hrest (List.tail_eq_of_cons_eq hnil)
          have hothers := ihentries hkeys (fun x hx => hentries x (.tail _ hx))
            fun x hx => ih x (.tail _ hx)
          refine List.nodup_append'.mpr ⟨hfirst, hothers, ?_⟩
          -- the first name tells the entries apart
          intro names hhere hthere
          have hhead : names.head? = some e.1 := by
            rcases List.mem_cons.mp hhere with rfl | hhere
            · rfl
            · obtain ⟨rest, -, rfl⟩ := List.mem_map.mp hhere
              rfl
          apply hnew
          obtain ⟨x, hx, rfl | ⟨rest, -, rfl⟩⟩ := mem_entriesPlaces.mp hthere
          · exact List.mem_map.mpr ⟨x, hx, Option.some.inj hhead⟩
          · exact List.mem_map.mpr ⟨x, hx, Option.some.inj hhead⟩

/-- Putting a node at a place does not make a name stand twice. -/
theorem insert {new : Node} (h : n.Distinct) (hnew : new.Distinct) (names : List String) :
    (n.insert names new).Distinct := by
  induction names generalizing n with
  | nil => exact hnew
  | cons name names ih =>
      cases h with
      | file content => exact .file content
      | link target => exact .link target
      | @directory entries hkeys hentries =>
          have hchild : ((Table.get? name entries).getD (.directory [])).Distinct := by
            cases hget : Table.get? name entries with
            | none => exact .directory List.nodup_nil fun _ he => nomatch he
            | some child => exact hentries _ (Table.mem_of_get? hget)
          apply Distinct.directory
          · exact Table.nodup_keys_put hkeys
          · intro e he
            rcases Table.mem_of_mem_put he with rfl | he
            · exact ih hchild
            · exact hentries e he

end Distinct

end SfcCheck.Node

namespace SfcCheck.FileTree

/-! ## Following names past no link -/

/-- A name that leads to an entry of its directory. -/
structure IsEntryName (name : String) : Prop where
  ne_empty : name ≠ ""
  ne_here : name ≠ "."
  ne_above : name ≠ ".."
  fits : name.utf8ByteSize ≤ nameLimit

instance (name : String) : Decidable (IsEntryName name) :=
  decidable_of_iff (name ≠ "" ∧ name ≠ "." ∧ name ≠ ".." ∧ name.utf8ByteSize ≤ nameLimit)
    ⟨fun ⟨h₁, h₂, h₃, h₄⟩ => ⟨h₁, h₂, h₃, h₄⟩, fun ⟨h₁, h₂, h₃, h₄⟩ => ⟨h₁, h₂, h₃, h₄⟩⟩

/-- What names lead to, first name and rest. -/
theorem at?_cons_cases {top n : Node} {place names : List String} {name : String}
    (hat : top.at? (place ++ name :: names) = some n) (hlink : ∀ target, n ≠ .link target) :
    ∃ (entries : Table Node) (child : Node), top.at? place = some (.directory entries) ∧
      Table.get? name entries = some child ∧ (∀ target, child ≠ .link target) ∧
      top.at? (place ++ [name]) = some child := by
  rw [Node.at?_append] at hat
  obtain ⟨m, hm, hrest⟩ := Option.bind_eq_some_iff.mp hat
  obtain ⟨child, hchild, hnames⟩ := Option.bind_eq_some_iff.mp hrest
  cases m with
  | file => cases hchild
  | link => cases hchild
  | directory entries =>
      refine ⟨entries, child, hm, hchild, ?_, ?_⟩
      · rintro target rfl
        cases names with
        | nil => exact hlink target (Option.some.inj hnames).symm
        | cons => cases hnames
      · rw [Node.at?_append, hm]
        show (Node.child? name (.directory entries)).bind (Node.at? []) = some child
        rw [hchild]
        rfl

variable {top n : Node} {names : List String}

/-- Names that lead past no link lead to the place that they name. -/
theorem walk_of_at? {links : Nat} {place : List String}
    (hat : top.at? (place ++ names) = some n) (hnames : ∀ name ∈ names, IsEntryName name)
    (hlink : ∀ target, n ≠ .link target) :
    walk top links place names = .ok (place ++ names, n) := by
  induction names generalizing place with
  | nil =>
      rw [List.append_nil] at hat ⊢
      rw [walk, hat]
  | cons name names ih =>
      obtain ⟨entries, child, hplace, hget, hchild, -⟩ := at?_cons_cases hat hlink
      have hname := hnames name (.head _)
      have hassoc : place ++ name :: names = place ++ [name] ++ names := by simp
      rw [walk, hplace]
      simp only [hname.ne_here, hname.ne_above, Nat.not_lt.mpr hname.fits, if_false, hget]
      rw [hassoc] at hat ⊢
      have hrest := ih hat fun x hx => hnames x (.tail _ hx)
      cases child with
      | link target => exact absurd rfl (hchild target)
      | file => exact hrest
      | directory => exact hrest

/-- A link to a name beside it leads where that name leads. -/
theorem walk_of_link {links : Nat} {place : List String} {entries : Table Node}
    {name target : String} (hplace : top.at? place = some (.directory entries))
    (hget : Table.get? name entries = some (.link target)) (hname : IsEntryName name)
    (hslash : '/' ∉ target.toList) (htarget : target ≠ "") :
    walk top (links + 1) place (name :: names) = walk top links place (target :: names) := by
  have hstart : targetStart place target = place := by
    apply if_neg
    intro hhead
    exact hslash (List.mem_of_head? hhead)
  have hsteps : steps target = [target] := by
    simp [steps, Path.parts, List.splitOn_eq_singleton hslash, htarget]
  rw [walk, hplace]
  simp only [hname.ne_here, hname.ne_above, Nat.not_lt.mpr hname.fits, if_false, hget, hstart,
    hsteps, List.singleton_append]

/-- A name that is too long leads nowhere. -/
theorem walk_of_long {links : Nat} {place : List String} {entries : Table Node} {name : String}
    (hplace : top.at? place = some (.directory entries))
    (hname : nameLimit < name.utf8ByteSize) :
    walk top links place (name :: names) = .error .nameTooLong := by
  have hhere : name ≠ "." := by
    rintro rfl
    exact absurd hname (by decide +kernel)
  have habove : name ≠ ".." := by
    rintro rfl
    exact absurd hname (by decide +kernel)
  rw [walk, hplace]
  simp only [hhere, habove, if_false, if_pos hname]

/-- A name that its directory does not have leads nowhere. -/
theorem walk_of_missing {links : Nat} {place : List String} {entries : Table Node} {name : String}
    (hplace : top.at? place = some (.directory entries)) (hname : IsEntryName name)
    (hget : Table.get? name entries = none) :
    walk top links place (name :: names) = .error .notFound := by
  rw [walk, hplace]
  simp only [hname.ne_here, hname.ne_above, Nat.not_lt.mpr hname.fits, if_false, hget]

theorem follow_of_at? {here : List String} {depth : Nat} {met : Met} {place : List String}
    (hat : top.at? (place ++ names) = some n) (hnames : ∀ name ∈ names, IsEntryName name)
    (hlink : ∀ target, n ≠ .link target) :
    follow top here depth met (.ofNames place) names = (.at (.ofNames (place ++ names)), met) := by
  induction names generalizing place with
  | nil => rw [follow, List.append_nil]
  | cons name names ih =>
      obtain ⟨entries, child, -, -, hchild, hnext⟩ := at?_cons_cases hat hlink
      have hname := hnames name (.head _)
      have hassoc : place ++ name :: names = place ++ [name] ++ names := by simp
      rw [hassoc] at hat ⊢
      have hrest := ih hat fun x hx => hnames x (.tail _ hx)
      have hnamesOf : top.at? (namesOf here ⟨.root, place ++ [name]⟩) = some child := hnext
      rw [follow]
      simp only [hname.ne_empty, hname.ne_here, hname.ne_above, or_self, if_false, Path.ofNames,
        hnamesOf]
      cases child with
      | link target => exact absurd rfl (hchild target)
      | file => exact hrest
      | directory => exact hrest

/-- A path below the root that is within the limits is looked up by following its names. -/
theorem lookup?_ofNames (t : FileTree)
    (hfits : (Path.ofNames names).text.utf8ByteSize ≤ pathLimit)
    (hnull : hasNull (.ofNames names) = false) :
    t.lookup? (.ofNames names) =
      match walk t.top linkLimit [] names with
      | .ok (_, n) => .ok (some n)
      | .error .nameTooLong => .error (.failed .nameTooLong (Path.ofNames names).text)
      | .error _ => .ok none := by
  have hlookup : t.lookup (.ofNames names) = (·.2) <$> walk t.top linkLimit [] names :=
    if_neg (Nat.not_lt.mpr hfits)
  rw [lookup?, hnull, hlookup]
  rcases walk t.top linkLimit [] names with cause | ⟨place, n⟩
  · cases cause <;> rfl
  · rfl

/-- A file or a directory stands at a place, and the path of the place is within the limits. -/
structure StandsAt (t : FileTree) (names : List String) (n : Node) : Prop where
  at? : t.top.at? names = some n
  ne_link : ∀ target, n ≠ .link target
  areNames : ∀ name ∈ names, IsEntryName name
  fits : (Path.ofNames names).text.utf8ByteSize ≤ pathLimit
  hasNull : hasNull (.ofNames names) = false

namespace StandsAt

variable {t : FileTree}

/-- The path of a place leads to what stands there. -/
theorem lookup_eq (h : t.StandsAt names n) : t.lookup (.ofNames names) = .ok n := by
  rw [lookup, if_neg (Nat.not_lt.mpr h.fits)]
  show (·.2) <$> walk t.top linkLimit [] names = _
  rw [walk_of_at? (by exact h.at?) h.areNames h.ne_link]
  rfl

theorem lookup?_eq (h : t.StandsAt names n) : t.lookup? (.ofNames names) = .ok (some n) := by
  rw [lookup?, h.hasNull, h.lookup_eq]
  rfl

theorem isDirectory_eq (h : t.StandsAt names n) :
    t.isDirectory (.ofNames names) = .ok n.isDirectory := by
  rw [isDirectory, h.lookup?_eq]
  cases n <;> rfl

theorem isFile_eq {content : List UInt8} (h : t.StandsAt names (.file content)) :
    t.isFile (.ofNames names) = .ok true := by
  rw [isFile, h.lookup?_eq]
  rfl

theorem read_eq {content : List UInt8} (h : t.StandsAt names (.file content)) :
    t.read (.ofNames names) = .ok content := by
  rw [read, h.hasNull, h.lookup_eq]
  rfl

/-- The path of a place is resolved already. -/
theorem resolve_eq (h : t.StandsAt names n) :
    t.resolve (.ofNames names) = .ok (.ofNames names) := by
  have htarget : t.target (.ofNames names) = names := by
    show (follow t.top t.here _ [] (.ofNames []) names).1.names t.here = names
    rw [follow_of_at? (by exact h.at?) h.areNames h.ne_link]
    rfl
  simp [resolve, h.hasNull, htarget, h.lookup_eq]

end StandsAt

end SfcCheck.FileTree
