import Mathlib.Data.List.TakeWhile
import SfcCheck.Proofs.Results
import SfcCheck.Proofs.Source.Places
import SfcCheck.Source

/-!
# The files that are selected

A search below a directory looks at every place there. If each of them can be looked at, the search
gives the files of the right kind in ascending order, each of them once, and no others. If a name on
the way from one of them is too long, it gives no files at all, but says so.
-/

namespace SfcCheck

/-! ## Extensions and order -/

/-- A name ends in a dot and an extension, and something stands before the dot. -/
def Path.HasSuffix (name ext : String) : Prop :=
  ext ≠ "" ∧ '.' ∉ ext.toList ∧ ∃ stem, stem ≠ "" ∧ name = stem ++ "." ++ ext

/-- What follows the last dot of a text, and what stands before it. -/
theorem Path.eq_append_dot {cs ext : List Char}
    (hext : (cs.reverse.takeWhile (· != '.')).reverse = ext) (hlength : ext.length < cs.length) :
    '.' ∉ ext ∧ ∃ stem, cs = stem ++ '.' :: ext := by
  have hsplit := List.takeWhile_append_dropWhile (p := (· != '.')) (l := cs.reverse)
  have htake : cs.reverse.takeWhile (· != '.') = ext.reverse := by
    rw [← hext, List.reverse_reverse]
  constructor
  · intro hdot
    have hmem : '.' ∈ cs.reverse.takeWhile (· != '.') := by
      rw [htake]
      exact List.mem_reverse.mpr hdot
    exact absurd (List.mem_takeWhile_imp hmem) (by decide)
  · cases hdrop : cs.reverse.dropWhile (· != '.') with
    | nil =>
        rw [hdrop, htake, List.append_nil] at hsplit
        have hsame : ext.length = cs.length := by simpa using congrArg List.length hsplit
        omega
    | cons c stem =>
        have hc : c = '.' := by
          have hhead := List.head?_dropWhile_not (· != '.') cs.reverse
          simpa [hdrop] using hhead
        rw [hdrop, htake, hc] at hsplit
        exact ⟨stem.reverse, by simpa using (congrArg List.reverse hsplit).symm⟩

theorem Path.extensionOf?_eq_some_iff {name ext : String} :
    extensionOf? name = some ext ↔ HasSuffix name ext := by
  constructor
  · intro h
    simp only [extensionOf?] at h
    split at h
    · cases h
    · next hlong =>
        cases h
        rw [Bool.or_eq_true, not_or, decide_eq_true_eq, not_lt] at hlong
        obtain ⟨hnonempty, hlength⟩ := hlong
        obtain ⟨hdot, stem, hname⟩ :=
          eq_append_dot (Eq.refl (name.toList.reverse.takeWhile (· != '.')).reverse) (by omega)
        have hstem : stem ≠ [] := by
          rintro rfl
          have hshort := congrArg List.length hname
          rw [List.nil_append, List.length_cons] at hshort
          omega
        refine ⟨?_, ?_, String.ofList stem, ?_, ?_⟩
        · simpa using hnonempty
        · simpa using hdot
        · simpa using hstem
        · apply String.toList_inj.mp
          simpa using hname
  · rintro ⟨hext, hdot, stem, hstem, rfl⟩
    have hreverse : (stem ++ "." ++ ext).toList.reverse =
        ext.toList.reverse ++ '.' :: stem.toList.reverse := by simp
    have htake : ((stem ++ "." ++ ext).toList.reverse.takeWhile (· != '.')).reverse =
        ext.toList := by
      rw [hreverse, List.takeWhile_append_of_pos, List.takeWhile_cons_of_neg] <;> simp
      rintro _ h rfl
      exact hdot h
    simp only [extensionOf?, htake]
    rw [if_neg]
    · simp
    · have hlength : 0 < stem.toList.length := List.length_pos_iff.mpr (by simpa using hstem)
      simp [hext]
      omega

namespace Source

/-- Names are in order unless the second ones come first. -/
theorem isInOrder_iff {as bs : List String} :
    isInOrder as bs = true ↔ ¬ List.Lex (· < ·) bs as := by
  fun_induction isInOrder as bs with
  | case1 bs =>
      constructor
      · intro _ h
        cases h
      · intro _
        rfl
  | case2 a as =>
      constructor
      · intro h
        cases h
      · intro h
        exact absurd .nil h
  | case3 b as bs ih =>
      rw [ih]
      constructor
      · intro h hlex
        cases hlex with
        | cons hlex => exact h hlex
        | rel hlt => exact String.lt_irrefl _ hlt
      · intro h hlex
        exact h (.cons hlex)
  | case4 a as b bs hne =>
      rw [decide_eq_true_iff]
      constructor
      · intro hlt hlex
        cases hlex with
        | cons hlex => exact hne rfl
        | rel hlt' => exact String.lt_asymm hlt hlt'
      · intro h
        apply Decidable.byContradiction
        intro hnot
        have hnot' : ¬ b < a := fun hlt => h (.rel hlt)
        exact hne (String.le_antisymm (String.not_lt.mp hnot') (String.not_lt.mp hnot))

theorem isInOrder_trans {as bs cs : List String} (h : isInOrder as bs = true)
    (h' : isInOrder bs cs = true) : isInOrder as cs = true :=
  isInOrder_iff.mpr (List.le_trans (isInOrder_iff.mp h) (isInOrder_iff.mp h'))

theorem isInOrder_total (as bs : List String) :
    (isInOrder as bs || isInOrder bs as) = true := by
  rw [Bool.or_eq_true, isInOrder_iff, isInOrder_iff]
  exact List.le_total as bs

theorem eq_of_isInOrder {as bs : List String} (h : isInOrder as bs = true)
    (h' : ¬ List.Lex (· < ·) as bs) : as = bs := List.le_antisymm (isInOrder_iff.mp h) h'

/-! ## What a search finds -/

section Selection

variable {tree : FileTree} {root r : Path} {extensions : List String} {excluded dirs : List Path}

/-- The path of a place below a directory. -/
def under (r : Path) (names : List String) : Path := .ofNames (r.names ++ names)

/-- Names lead from a directory to a place below it, no link being followed on the way. -/
def IsBelow (tree : FileTree) (r : Path) (names : List String) : Prop :=
  names ≠ [] ∧ (tree.top.at? (r.names ++ names)).isSome = true

/-- Every place below a directory can be looked at: no name on the way from there is too long. -/
def Searchable (tree : FileTree) (r : Path) : Prop :=
  ∀ names, IsBelow tree r names → ∃ found, tree.lookup? (under r names) = .ok found

/-- The names of a file below a directory that is to be checked. -/
structure Chosen (tree : FileTree) (r : Path) (extensions : List String) (dirs : List Path)
    (names : List String) : Prop where
  isBelow : IsBelow tree r names
  isFile : tree.isFile (under r names) = .ok true
  hasSuffix : ∃ ext ∈ extensions, Path.HasSuffix (under r names).name ext
  notIgnored : ∀ name ∈ names, name ∉ ignoredNames
  notExcluded : ∀ d ∈ dirs, ¬ d.text.toList <+: (under r names).text.toList

/-- What a search looks at. -/
def searched (tree : FileTree) (r : Path) : Node :=
  (tree.top.at? r.names).getD (.directory [])

theorem under_injective (r : Path) : Function.Injective (under r) := by
  intro names others h
  exact List.append_cancel_left (congrArg Path.names h)

theorem distinct_searched (h : tree.top.Distinct) (r : Path) : (searched tree r).Distinct := by
  rw [searched]
  cases hat : tree.top.at? r.names with
  | none => exact .directory List.nodup_nil fun _ he => nomatch he
  | some n => exact h.of_at? hat

theorem mem_places_searched (h : tree.top.Distinct) {names : List String} :
    names ∈ (searched tree r).places ↔ IsBelow tree r names := by
  rw [(distinct_searched h r).mem_places_iff, IsBelow, Node.at?_append, searched]
  apply and_congr_right
  intro hne
  cases tree.top.at? r.names with
  | some n => rfl
  | none =>
      obtain ⟨name, rest, rfl⟩ := List.exists_cons_of_ne_nil hne
      simp [Node.at?, Node.child?]

/-- A search once its directories are known. -/
theorem select_eq (hroot : tree.resolve root = .ok r)
    (hexcluded : excluded.mapM tree.resolve = .ok dirs)
    (hdirectory : tree.isDirectory r = .ok true) :
    select tree root extensions excluded = (do
      ((searched tree r).visits (hasExtension extensions)).forM fun names =>
        discard (tree.lookup? (under r names))
      let files ← (((searched tree r).places.filter (isWanted extensions)).map (under r)).filterM
        tree.isFile
      return (files.filter fun p => !startsWithAny (dirs.map Path.text) p).mergeSort
        fun p q => isInOrder p.names q.names) := by
  have hstarts : excluded.mapM (fun p => return (← tree.resolve p).text) =
      .ok (dirs.map Path.text) := mapM_map_ok hexcluded Path.text
  rw [select, hroot]
  show (excluded.mapM (fun p => return (← tree.resolve p).text) >>= _) = _
  rw [hstarts]
  show (tree.isDirectory r >>= _) = _
  rw [hdirectory]
  rfl

/-- A name on the way to a place is too long, or the place can be looked at. -/
theorem lookup?_cases (tree : FileTree) (p : Path) :
    (∃ found, tree.lookup? p = .ok found) ∨
      tree.lookup? p = .error (.failed .nameTooLong p.text) := by
  rw [FileTree.lookup?]
  split
  · exact .inl ⟨_, rfl⟩
  · split
    · exact .inl ⟨_, rfl⟩
    · exact .inr rfl
    · exact .inl ⟨_, rfl⟩

/-- Where a place can be looked at, it is either a file or not. -/
theorem isFile_ok {p : Path} {found : Option Node} (h : tree.lookup? p = .ok found) :
    ∃ b, tree.isFile p = .ok b := by
  rw [FileTree.isFile, h]
  rcases found with _ | _ | _ | _ <;> exact ⟨_, rfl⟩

/-- The places that are checked for files, as they stand in the tree. -/
def candidates (tree : FileTree) (r : Path) (extensions : List String) : List Path :=
  ((searched tree r).places.filter (isWanted extensions)).map (under r)

/-- The files that are found, as they stand in the tree. -/
def found (tree : FileTree) (r : Path) (extensions : List String) (dirs : List Path) : List Path :=
  ((candidates tree r extensions).filter fun p => decide (tree.isFile p = .ok true)).filter
    fun p => !startsWithAny (dirs.map Path.text) p

theorem nodup_found (h : tree.top.Distinct) : (found tree r extensions dirs).Nodup :=
  ((((distinct_searched h r).nodup_places.filter _).map (under_injective r)).filter _).filter _

theorem isWanted_iff {names : List String} :
    isWanted extensions names = true ↔
      (∃ ext ∈ extensions, Path.HasSuffix (names.getLast?.getD "") ext) ∧
        ∀ name ∈ names, name ∉ ignoredNames := by
  simp [isWanted, hasExtension, Option.any_eq_true, Path.extensionOf?_eq_some_iff, and_comm]

theorem startsWithAny_iff {p : Path} :
    startsWithAny (dirs.map Path.text) p = true ↔ ∃ d ∈ dirs, d.text.toList <+: p.text.toList := by
  simp [startsWithAny]

theorem name_under {names : List String} (h : names ≠ []) :
    (under r names).name = names.getLast?.getD "" := by
  rw [under, Path.name, Path.ofNames, List.getLast?_append_of_ne_nil _ h]

/-- What is found is what is to be checked. -/
theorem mem_found_iff (h : tree.top.Distinct) {p : Path} :
    p ∈ found tree r extensions dirs ↔
      ∃ names, p = under r names ∧ Chosen tree r extensions dirs names := by
  constructor
  · intro hp
    obtain ⟨hp, hkept⟩ := List.mem_filter.mp hp
    obtain ⟨hp, hfile⟩ := List.mem_filter.mp hp
    obtain ⟨names, hnames, rfl⟩ := List.mem_map.mp hp
    obtain ⟨hplace, hwanted⟩ := List.mem_filter.mp hnames
    have hbelow := (mem_places_searched h).mp hplace
    obtain ⟨hsuffix, hignored⟩ := isWanted_iff.mp hwanted
    refine ⟨names, rfl, hbelow, of_decide_eq_true hfile, ?_, hignored, ?_⟩
    · rwa [name_under hbelow.1]
    · intro d hd hbegins
      rw [startsWithAny_iff.mpr ⟨d, hd, hbegins⟩] at hkept
      cases hkept
  · rintro ⟨names, rfl, hchosen⟩
    have hsuffix := hchosen.hasSuffix
    rw [name_under hchosen.isBelow.1] at hsuffix
    have hwanted := isWanted_iff.mpr ⟨hsuffix, hchosen.notIgnored⟩
    have hplace := (mem_places_searched h).mpr hchosen.isBelow
    have hkept : startsWithAny (dirs.map Path.text) (under r names) = false := by
      rw [Bool.eq_false_iff]
      intro hstarts
      obtain ⟨d, hd, hbegins⟩ := startsWithAny_iff.mp hstarts
      exact hchosen.notExcluded d hd hbegins
    apply List.mem_filter.mpr
    refine ⟨List.mem_filter.mpr ⟨?_, decide_eq_true hchosen.isFile⟩, by rw [hkept]; rfl⟩
    exact List.mem_map.mpr ⟨names, List.mem_filter.mpr ⟨hplace, hwanted⟩, rfl⟩

/-- Sorting paths below the root puts them in ascending order. -/
theorem ascending_mergeSort {ps : List Path} (hnodup : ps.Nodup)
    (hroot : ∀ p ∈ ps, p.anchor = .root) :
    (ps.mergeSort fun p q => isInOrder p.names q.names).Pairwise
      fun p q => List.Lex (· < ·) p.names q.names := by
  have hperm := List.mergeSort_perm ps fun p q => isInOrder p.names q.names
  have htrans (a b c : Path) (hab : isInOrder a.names b.names = true)
      (hbc : isInOrder b.names c.names = true) : isInOrder a.names c.names = true :=
    isInOrder_trans hab hbc
  have htotal (a b : Path) :
      (isInOrder a.names b.names || isInOrder b.names a.names) = true := isInOrder_total _ _
  have hsorted := List.pairwise_mergeSort htrans htotal ps
  have hdistinct := hperm.nodup_iff.mpr hnodup
  refine (hsorted.and hdistinct).imp_of_mem ?_
  rintro p q hp hq ⟨hle, hne⟩
  have hanchor : p.anchor = q.anchor :=
    (hroot p (hperm.mem_iff.mp hp)).trans (hroot q (hperm.mem_iff.mp hq)).symm
  apply Classical.byContradiction
  intro hnot
  have hnames : p.names = q.names := eq_of_isInOrder hle hnot
  exact hne (by cases p; cases q; cases hanchor; cases hnames; rfl)

/-- What a search gives where every place can be looked at. -/
theorem select_of_searchable (extensions : List String) (hdistinct : tree.top.Distinct)
    (hroot : tree.resolve root = .ok r)
    (hexcluded : excluded.mapM tree.resolve = .ok dirs)
    (hdirectory : tree.isDirectory r = .ok true) (hsearchable : Searchable tree r) :
    select tree root extensions excluded =
      .ok ((found tree r extensions dirs).mergeSort fun p q => isInOrder p.names q.names) := by
  have hvisits : ((searched tree r).visits (hasExtension extensions)).forM
      (fun names => discard (tree.lookup? (under r names))) = .ok () := by
    apply forM_ok
    intro names hnames
    have hplace := ((distinct_searched hdistinct r).mem_visits_iff _ names).mp hnames
    obtain ⟨n, hn⟩ := hsearchable names ((mem_places_searched hdistinct).mp hplace)
    rw [hn]
    rfl
  have hfiles : (candidates tree r extensions).filterM tree.isFile =
      .ok ((candidates tree r extensions).filter fun p => decide (tree.isFile p = .ok true)) := by
    apply filterM_ok
    intro p hp
    obtain ⟨names, hnames, rfl⟩ := List.mem_map.mp hp
    have hplace := (List.mem_filter.mp hnames).1
    obtain ⟨n, hn⟩ := hsearchable names ((mem_places_searched hdistinct).mp hplace)
    obtain ⟨b, hb⟩ := isFile_ok hn
    rw [hb]
    cases b <;> rfl
  rw [select_eq hroot hexcluded hdirectory, hvisits]
  show ((candidates tree r extensions).filterM tree.isFile >>= _) = _
  rw [hfiles]
  rfl

/-- If a place cannot be looked at, a search gives nothing but the first such place. -/
theorem select_of_not_searchable (extensions : List String) (hdistinct : tree.top.Distinct)
    (hroot : tree.resolve root = .ok r) (hexcluded : excluded.mapM tree.resolve = .ok dirs)
    (hdirectory : tree.isDirectory r = .ok true) (hnot : ¬ Searchable tree r) :
    ∃ names, IsBelow tree r names ∧ select tree root extensions excluded =
      .error (.failed .nameTooLong (under r names).text) := by
  have hfails : ∃ names ∈ (searched tree r).visits (hasExtension extensions),
      discard (tree.lookup? (under r names)) ≠ .ok () := by
    obtain ⟨names, hnot⟩ := not_forall.mp hnot
    obtain ⟨hbelow, hnot⟩ := Classical.not_imp.mp hnot
    have hplace := (mem_places_searched hdistinct).mpr hbelow
    refine ⟨names, ((distinct_searched hdistinct r).mem_visits_iff _ names).mpr hplace, ?_⟩
    rcases lookup?_cases tree (under r names) with hok | herror
    · exact absurd hok hnot
    · rw [herror]
      intro h
      cases h
  obtain ⟨names, hnames, e, he, hvisits⟩ := forM_error hfails
  have hplace := ((distinct_searched hdistinct r).mem_visits_iff _ names).mp hnames
  refine ⟨names, (mem_places_searched hdistinct).mp hplace, ?_⟩
  rw [select_eq hroot hexcluded hdirectory, hvisits]
  rcases lookup?_cases tree (under r names) with ⟨found, hok⟩ | herror
  · rw [hok] at he
    cases he
  · rw [herror] at he
    cases he
    rfl

/-- A search below a directory gives the files to be checked, each of them once and in ascending
order, if every place there can be looked at. If one cannot, the search fails with it. -/
theorem select_spec (hdistinct : tree.top.Distinct) (hroot : tree.resolve root = .ok r)
    (hexcluded : excluded.mapM tree.resolve = .ok dirs)
    (hdirectory : tree.isDirectory r = .ok true) :
    (Searchable tree r → ∃ ps, select tree root extensions excluded = .ok ps ∧
      ps.Pairwise (fun p q => List.Lex (· < ·) p.names q.names) ∧
      ∀ p, p ∈ ps ↔ ∃ names, p = under r names ∧ Chosen tree r extensions dirs names) ∧
    (¬ Searchable tree r → ∃ names, IsBelow tree r names ∧
      select tree root extensions excluded =
        .error (.failed .nameTooLong (under r names).text)) := by
  constructor
  · intro hsearchable
    refine ⟨_, select_of_searchable extensions hdistinct hroot hexcluded hdirectory hsearchable,
      ?_, ?_⟩
    · apply ascending_mergeSort (nodup_found hdistinct)
      intro p hp
      obtain ⟨names, rfl, -⟩ := (mem_found_iff hdistinct).mp hp
      rfl
    · intro p
      rw [(List.mergeSort_perm _ _).mem_iff]
      exact mem_found_iff hdistinct
  · intro hnot
    exact select_of_not_searchable extensions hdistinct hroot hexcluded hdirectory hnot

/-- A component, a link to it, and a component in an excluded directory. -/
def linked : FileTree where
  top := .directory
    [("b.vue", .file []), ("a.vue", .link "b.vue"), ("tests", .directory [("c.vue", .file [])])]
  here := []

theorem select_linked :
    ∃ ps, select linked (.ofNames []) ["vue"] [.ofNames ["tests"]] = .ok ps ∧
      ps.Pairwise (fun p q => List.Lex (· < ·) p.names q.names) ∧
      ∀ p, p ∈ ps ↔ ∃ names, p = under (.ofNames []) names ∧
        Chosen linked (.ofNames []) ["vue"] [.ofNames ["tests"]] names := by
  have hdistinct : linked.top.Distinct := by
    simp [linked, Node.distinct_directory_iff, Table.keys, Node.Distinct.file, Node.Distinct.link]
  have hroot : linked.StandsAt [] _ :=
    ⟨rfl, by simp [linked], by simp, by decide +kernel, by decide +kernel⟩
  have hcomponent : linked.StandsAt ["b.vue"] _ :=
    ⟨rfl, by simp, by decide +kernel, by decide +kernel, by decide +kernel⟩
  have htests : linked.StandsAt ["tests"] _ :=
    ⟨rfl, by simp, by decide +kernel, by decide +kernel, by decide +kernel⟩
  have hinside : linked.StandsAt ["tests", "c.vue"] _ :=
    ⟨rfl, by simp, by decide +kernel, by decide +kernel, by decide +kernel⟩
  have hlink : FileTree.walk linked.top FileTree.linkLimit [] ["a.vue"] =
      .ok (["b.vue"], .file []) := by
    rw [FileTree.linkLimit, FileTree.walk_of_link rfl rfl (by decide +kernel) (by decide +kernel)
      (by decide)]
    exact FileTree.walk_of_at? rfl hcomponent.areNames hcomponent.ne_link
  have hlookup : linked.lookup? (.ofNames ["a.vue"]) = .ok (some (.file [])) := by
    rw [FileTree.lookup?_ofNames linked (by decide +kernel) (by decide +kernel), hlink]
  have hexcluded : [Path.ofNames ["tests"]].mapM linked.resolve = .ok [.ofNames ["tests"]] := by
    rw [List.mapM_cons, htests.resolve_eq]
    rfl
  apply (select_spec hdistinct hroot.resolve_eq hexcluded hroot.isDirectory_eq).1
  intro names hbelow
  have hplace := (mem_places_searched hdistinct).mpr hbelow
  have hplaces : (searched linked (.ofNames [])).places =
      [["b.vue"], ["a.vue"], ["tests"], ["tests", "c.vue"]] := rfl
  simp only [hplaces, List.mem_cons, List.not_mem_nil, or_false] at hplace
  rcases hplace with rfl | rfl | rfl | rfl
  · exact ⟨_, hcomponent.lookup?_eq⟩
  · exact ⟨_, hlookup⟩
  · exact ⟨_, htests.lookup?_eq⟩
  · exact ⟨_, hinside.lookup?_eq⟩

/-- A name of some length. -/
def longName (length : Nat) : String := String.ofList (List.replicate length 'x')

theorem slash_not_mem_longName (length : Nat) : '/' ∉ (longName length).toList := by
  simp [longName]

/-- A component beside a link to a name that is too long. -/
def farLink : FileTree where
  top := .directory [("a.vue", .file []), ("far", .link (longName 256))]
  here := []

/-- One such link is enough for a component beside it not to be selected. -/
theorem select_farLink :
    farLink.top.Distinct ∧ farLink.resolve (.ofNames []) = .ok (.ofNames []) ∧
      farLink.isDirectory (.ofNames []) = .ok true ∧
      Chosen farLink (.ofNames []) ["vue"] [] ["a.vue"] ∧
      ¬ ∃ ps, select farLink (.ofNames []) ["vue"] [] = .ok ps := by
  have hdistinct : farLink.top.Distinct := by
    simp [farLink, Node.distinct_directory_iff, Table.keys, Node.Distinct.file, Node.Distinct.link]
  have hroot : farLink.StandsAt [] _ :=
    ⟨rfl, by simp [farLink], by simp, by decide +kernel, by decide +kernel⟩
  have hcomponent : farLink.StandsAt ["a.vue"] _ :=
    ⟨rfl, by simp, by decide +kernel, by decide +kernel, by decide +kernel⟩
  have hlink : FileTree.walk farLink.top FileTree.linkLimit [] ["far"] = .error .nameTooLong := by
    have htop : farLink.top.at? [] =
        some (.directory [("a.vue", .file []), ("far", .link (longName 256))]) := rfl
    have hget : Table.get? "far" [("a.vue", Node.file []), ("far", Node.link (longName 256))] =
        some (Node.link (longName 256)) := if_neg (by decide)
    have hlong : FileTree.nameLimit < (longName 256).utf8ByteSize := by decide +kernel
    rw [FileTree.linkLimit, FileTree.walk_of_link htop hget (by decide +kernel)
      (slash_not_mem_longName 256) (by decide +kernel)]
    exact FileTree.walk_of_long htop hlong
  have hlookup : farLink.lookup? (.ofNames ["far"]) =
      .error (.failed .nameTooLong (Path.ofNames ["far"]).text) := by
    rw [FileTree.lookup?_ofNames farLink (by decide +kernel) (by decide +kernel), hlink]
  refine ⟨hdistinct, hroot.resolve_eq, hroot.isDirectory_eq, ?_, ?_⟩
  · refine ⟨⟨by simp, rfl⟩, ?_, ⟨"vue", by simp, ?_⟩, ?_, by simp⟩
    · show farLink.isFile (.ofNames ["a.vue"]) = .ok true
      rw [FileTree.isFile, hcomponent.lookup?_eq]
      rfl
    · exact Path.extensionOf?_eq_some_iff.mp (by decide +kernel)
    · decide +kernel
  · have hnot : ¬ Searchable farLink (.ofNames []) := by
      intro hsearchable
      obtain ⟨n, hn⟩ := hsearchable ["far"] ⟨by simp, rfl⟩
      rw [show under (.ofNames []) ["far"] = .ofNames ["far"] from rfl, hlookup] at hn
      cases hn
    have hexcluded : ([] : List Path).mapM farLink.resolve = .ok [] := rfl
    rintro ⟨ps, hps⟩
    obtain ⟨names, -, hselect⟩ := select_of_not_searchable ["vue"] hdistinct hroot.resolve_eq
      hexcluded hroot.isDirectory_eq hnot
    cases hps.symm.trans hselect

end Selection

end Source

end SfcCheck
