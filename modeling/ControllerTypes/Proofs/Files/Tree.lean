import ControllerTypes.Files.Tree
import ControllerTypes.Proofs.Run
import Mathlib

/-!
# `ControllerTypes.Proofs.Files.Tree`: output directories are there, and nothing else has changed

`Tree.Keeps` says that a tree has all that another one has, at the same places and with the same
contents. The results:

* `Keeps.follow`: a path that can be followed leads to the same place when the tree is kept, so what
  was made stays where it is found (`Keeps.isDirectory`).
* `isDirectory_of_makeDirectory`: a directory that was made is found under the path by which it was
  asked for, whatever dots and slashes are in that.
* `ensured_of_ensureDirectory`: when `Disk.ensureDirectory` succeeds on `Tree.disk` then the path is a
  directory, and if it was one before then the tree is as it was, in spite of the file by which it is
  probed. Whatever the answer is, the tree is kept.
-/

set_option autoImplicit false

namespace ControllerTypes.Files.Tree

open Run

variable {t t' t'' : Tree} {place other : Place} {entry : Entry} {path : String}

/-! ### What is at a place -/

/-- The entry of one place is replaced, and those of all others are as they were. -/
theorem find?_replace (entries : List (Place × Entry)) (place other : Place) (entry : Entry) :
    (entries.map fun e => if e.1 == place then (place, entry) else e).find? (fun e => e.1 == other) =
      if other = place then
        (entries.find? fun e => e.1 == place).map fun _ => (place, entry)
      else entries.find? fun e => e.1 == other := by
  induction entries with
  | nil => simp
  | cons e rest ih =>
    rw [List.map_cons, List.find?_cons, ih]
    -- The first entry is the one that is replaced or not, and the one that is looked for or not.
    by_cases he : e.1 = place
    · rw [he, beq_self_eq_true, if_pos rfl]
      by_cases hother : other = place
      · simp [hother, he]
      · simp [hother, he, beq_false_of_ne (Ne.symm hother)]
    · have hplace : (e.1 == place) = false := beq_false_of_ne he
      rw [hplace, if_neg Bool.false_ne_true]
      by_cases hother : other = place
      · simp [hother, hplace]
      · simp only [if_neg hother, List.find?_cons]

/-- What is put at a place is there, unless that is the root, and no other place is changed. -/
theorem get?_put (h : place ≠ []) :
    (t.put place entry).get? other = if other = place then some entry else t.get? other := by
  rw [put]
  -- Something is at the place, and is replaced, or nothing is, and then the entry goes to the end.
  split
  · next hsome =>
    rw [get?, if_neg h, Option.isSome_map] at hsome
    obtain ⟨e, he⟩ := Option.isSome_iff_exists.1 hsome
    rw [get?, get?, find?_replace, he]
    by_cases hother : other = place <;> simp [hother, h]
  · next hnone =>
    rw [get?, if_neg h, Option.isSome_map, Bool.not_eq_true, Option.isSome_eq_false_iff,
      Option.isNone_iff_eq_none] at hnone
    rw [get?, get?, List.find?_append]
    by_cases hother : other = place
    · simp [hother, h, hnone]
    · simp [hother, Ne.symm hother]

/-- A place that something was planted at has it. -/
theorem get?_plant (h : place ≠ []) : (t.plant place entry).get? place = some entry := by
  rw [plant, get?_put h, if_pos rfl]

/-! ### Trees that keep what there is -/

/-- The second tree has everything that the first one has, as it is there. -/
structure Keeps (t t' : Tree) : Prop where
  home : t'.home = t.home
  found : ∀ place entry, t.get? place = some entry → t'.get? place = some entry

/-- A tree has everything that it has. -/
theorem Keeps.refl (t : Tree) : t.Keeps t := ⟨rfl, fun _ _ h => h⟩

/-- What is kept twice is kept. -/
theorem Keeps.trans (h : t.Keeps t') (h' : t'.Keeps t'') : t.Keeps t'' :=
  ⟨h'.home.trans h.home, fun place entry hfound => h'.found place entry (h.found place entry hfound)⟩

/-- What is put where nothing was changes nothing that was there. -/
theorem keeps_put (hfree : t.get? place = none) : t.Keeps (t.put place entry) := by
  -- The root is always there, so it is not where nothing was.
  have hroot : place ≠ [] := by
    rintro rfl
    simp [get?] at hfree
  constructor
  · rw [put]
    split <;> rfl
  · intro other e hother
    have hne : other ≠ place := by
      rintro rfl
      rw [hfree] at hother
      cases hother
    rw [get?_put hroot, if_neg hne, hother]

/-- What can be followed in two steps can be followed in one. -/
theorem follow_append (t : Tree) (place : Place) (front back : List String) :
    t.follow place (front ++ back) = t.follow place front >>= fun q => t.follow q back := by
  induction front generalizing place with
  | nil => rfl
  | cons name rest ih =>
    simp only [List.cons_append, follow]
    -- The steps of a path are decided in the same way whatever follows behind.
    split
    · rfl
    · split
      · exact ih _
      · split
        · exact ih _
        · split
          · rfl
          · split
            · exact ih _
            · rfl

/-- The name of a file or a directory in the one it is in: it is not passed over, does not lead
upwards, and is not too long. -/
structure Plain (name : String) : Prop where
  empty : name ≠ ""
  dot : name ≠ "."
  dots : name ≠ ".."
  short : name.utf8ByteSize ≤ longestName

/-- Where a name leads from a directory. -/
inductive Enters (t : Tree) (place : Place) : String → Place → Prop
  | stay {name : String} (hname : name = "" ∨ name = ".") : Enters t place name place
  | up : Enters t place ".." place.dropLast
  | down {name : String} {entry : Entry} (hplain : Plain name)
      (hentry : t.get? (place ++ [name]) = some entry) : Enters t place name (place ++ [name])

/-- One name can be followed from a directory, and nowhere else. -/
theorem follow_singleton_iff {name : String} :
    t.follow place [name] = .ok other ↔ t.get? place = some .directory ∧ t.Enters place name other := by
  simp only [follow]
  constructor
  · -- `follow` decides in the order: a file in the way, a name that stays, one that leads up, one
    -- that is too long, and one that is not there. What is left after each of them is the rule for
    -- the next.
    intro h
    split at h
    · cases h
    · next hdirectory =>
      refine ⟨not_not.1 hdirectory, ?_⟩
      split at h
      · next hstay =>
        cases h
        exact .stay (by simpa using hstay)
      · next hstay =>
        split at h
        · next hup =>
          cases h
          exact eq_of_beq hup ▸ .up
        · next hup =>
          split at h
          · cases h
          · next hshort =>
            split at h
            · next hthere =>
              cases h
              obtain ⟨entry, hentry⟩ := Option.isSome_iff_exists.1 hthere
              simp only [Bool.or_eq_true, beq_iff_eq, not_or] at hstay hup
              exact .down ⟨hstay.1, hstay.2, hup, Nat.le_of_not_lt hshort⟩ hentry
            · cases h
  · rintro ⟨hdirectory, hname | _ | ⟨hplain, hentry⟩⟩
    · rcases hname with rfl | rfl <;> simp [hdirectory]
    · simp [hdirectory]
    · simp [hdirectory, hplain.empty, hplain.dot, hplain.dots, Nat.not_lt.2 hplain.short, hentry]

/-- A name leads to the same place when the tree is kept. -/
theorem Keeps.enters (h : t.Keeps t') {name : String} (hname : t.Enters place name other) :
    t'.Enters place name other := by
  cases hname with
  | stay hname => exact .stay hname
  | up => exact .up
  | down hplain hentry => exact .down hplain (h.found _ _ hentry)

/-- So does a path. -/
theorem Keeps.follow (h : t.Keeps t') {names : List String}
    (hplace : t.follow place names = .ok other) : t'.follow place names = .ok other := by
  induction names generalizing place with
  | nil => exact hplace
  | cons name rest ih =>
    -- The first name leads to a place that is kept, and the rest of the path begins there.
    rw [← List.singleton_append, follow_append, bind_eq_ok] at hplace ⊢
    obtain ⟨q, hfirst, hrest⟩ := hplace
    obtain ⟨hdirectory, henters⟩ := follow_singleton_iff.1 hfirst
    exact ⟨q, follow_singleton_iff.2 ⟨h.found _ _ hdirectory, h.enters henters⟩, ih hrest⟩

/-- A path is a directory if it leads to one. -/
theorem isDirectory_iff : t.isDirectory path = .ok true ↔
    ∃ place, t.locate path = .ok place ∧ t.get? place = some .directory := by
  rw [isDirectory, bind_eq_ok]
  refine exists_congr fun place => and_congr_right fun _ => ?_
  simp [pure, Except.pure]

/-- What was a directory is one when the tree is kept. -/
theorem Keeps.isDirectory (h : t.Keeps t') (hpath : t.isDirectory path = .ok true) :
    t'.isDirectory path = .ok true := by
  obtain ⟨place, hplace, hentry⟩ := isDirectory_iff.1 hpath
  refine isDirectory_iff.2 ⟨place, ?_, h.found _ _ hentry⟩
  rw [locate, bind_eq_ok] at hplace ⊢
  obtain ⟨names, hnames, hfollow⟩ := hplace
  refine ⟨names, hnames, ?_⟩
  -- The home is kept as well, so the path begins at the same place.
  rw [start, h.home]
  exact h.follow hfollow

/-! ### Making directories -/

/-- Slashes at the end of a path lead nowhere else. -/
theorem follow_blanks (hplace : t.get? place = some .directory) (n : Nat) :
    t.follow place (List.replicate n "") = .ok place := by
  induction n with
  | zero => rfl
  | succ n ih =>
    rw [List.replicate_succ, ← List.singleton_append, follow_append,
      follow_singleton_iff.2 ⟨hplace, .stay (.inl rfl)⟩]
    exact ih

/-- Slashes at the end of a path are empty names behind the last one that is not. -/
theorem eq_append_replicate {names rest : List String} {name : String}
    (h : names.reverse.dropWhile (· == "") = name :: rest) :
    name ≠ "" ∧ ∃ n, names = rest.reverse ++ name :: List.replicate n "" := by
  have hname : name ≠ "" := by
    have hstop := List.head?_dropWhile_not (· == "") names.reverse
    simpa [h] using hstop
  refine ⟨hname, (names.reverse.takeWhile (· == "")).length, ?_⟩
  -- What was dropped from the end are empty names, as many as there were.
  have hblank : names.reverse.takeWhile (· == "") =
      List.replicate (names.reverse.takeWhile (· == "")).length "" := by
    refine List.eq_replicate_iff.2 ⟨rfl, fun b hb => ?_⟩
    simpa using List.mem_takeWhile_imp hb
  calc names = names.reverse.reverse := names.reverse_reverse.symm
    _ = (names.reverse.takeWhile (· == "") ++ name :: rest).reverse := by
      rw [← h, List.takeWhile_append_dropWhile]
    _ = _ := by rw [hblank]; simp

/-- A path whose last name may be new: the names in front of it lead to a directory. -/
theorem locateNew_eq_ok {name : String} {slash : Bool}
    (h : t.locateNew path = .ok (place, some name, slash)) :
    ∃ parent names n, split path = .ok (names ++ name :: List.replicate n "") ∧
      t.follow (t.start path) names = .ok parent ∧ t.get? parent = some .directory ∧
      Plain name ∧ place = parent ++ [name] := by
  rw [locateNew, bind_eq_ok] at h
  obtain ⟨names, hnames, h⟩ := h
  obtain ⟨parent, hparent, h⟩ := bind_eq_ok.1 h
  dsimp only at h
  split at h
  · cases h
  · next hdirectory =>
    split at h
    · cases h
    · cases h
    · cases h
    · next last hdot hdots hlast =>
      split at h
      · cases h
      · next hshort =>
        cases h
        -- The last name that is not empty, with those in front of it and as many empty ones behind
        -- it as there are slashes at the end.
        rw [List.getLast?_reverse] at hlast
        obtain ⟨rest, hrest⟩ := List.head?_eq_some_iff.1 hlast
        obtain ⟨hempty, n, hsplit⟩ := eq_append_replicate hrest
        rw [hrest, List.reverse_cons, List.dropLast_concat] at hparent
        exact ⟨parent, rest.reverse, n, by rw [hnames, ← hsplit], hparent, not_not.1 hdirectory,
          ⟨hempty, hdot, hdots, Nat.le_of_not_lt hshort⟩, rfl⟩

/-- A directory that `makeDirectory` has made is found by the same path, and nothing else has
changed. -/
theorem isDirectory_of_makeDirectory (h : t.makeDirectory path = .ok t') :
    t.Keeps t' ∧ t'.isDirectory path = .ok true := by
  rw [makeDirectory, bind_eq_ok] at h
  obtain ⟨⟨place, name?, slash⟩, hlocate, h⟩ := h
  dsimp only at h
  split at h
  · cases h
  · next hnew =>
    cases h
    rw [Bool.or_eq_true, not_or, Bool.not_eq_true, Bool.not_eq_true,
      Option.isSome_eq_false_iff, Option.isNone_iff_eq_none] at hnew
    obtain ⟨hname, hfree⟩ := hnew
    -- A path that ends in dots has no name that a directory could be made under.
    cases name? with
    | none => cases hname
    | some name =>
      obtain ⟨parent, names, n, hnames, hfollow, hparent, hplain, rfl⟩ := locateNew_eq_ok hlocate
      have hkeeps : t.Keeps (t.put (parent ++ [name]) .directory) := keeps_put hfree
      have hmade : (t.put (parent ++ [name]) .directory).get? (parent ++ [name]) =
          some .directory := by
        rw [get?_put (by simp), if_pos rfl]
      refine ⟨hkeeps, isDirectory_iff.2 ⟨parent ++ [name], ?_, hmade⟩⟩
      -- The same path is followed once more: to the parent as before, then by the new name, and
      -- nowhere by the slashes behind it.
      rw [locate, hnames, start, hkeeps.home]
      have hfront := hkeeps.follow hfollow
      have hlast := follow_singleton_iff.2 ⟨hkeeps.found _ _ hparent, .down hplain hmade⟩
      have hbehind : (t.put (parent ++ [name]) .directory).follow parent
          ([name] ++ List.replicate n "") = .ok (parent ++ [name]) := by
        rw [follow_append]
        exact bind_eq_ok.2 ⟨_, hlast, follow_blanks hmade n⟩
      refine bind_eq_ok.2 ⟨_, rfl, ?_⟩
      rw [follow_append]
      exact bind_eq_ok.2 ⟨parent, hfront, hbehind⟩

/-! ### The disk -/

section
variable {answer : Except Failure Unit}

/-- The disk makes a directory as the tree does, and a failure leaves the tree alone. -/
theorem run_makeDirectory (t : Tree) (path : String) :
    (disk.makeDirectory path).run.run t =
      match t.makeDirectory path with
      | .ok t' => (.ok (), t')
      | .error failure => (.error failure, t) := by
  -- The operation is the outcome on the tree, and the new tree is only set if there is one.
  have hrun : (disk.makeDirectory path).run.run t =
      (disk.ofExcept (t.makeDirectory path) >>= fun t' => set t').run.run t := rfl
  have houtcome : (disk.ofExcept (t.makeDirectory path)).run.run t = (t.makeDirectory path, t) := rfl
  rw [hrun, runExcept_bind, houtcome]
  cases t.makeDirectory path <;> rfl

/-- Asking for a directory leaves the tree alone. -/
theorem run_hasDirectory (t : Tree) (path : String) :
    ∃ there, (disk.hasDirectory path).run.run t = (.ok there, t) ∧
      (there = true → t.isDirectory path = .ok true) := by
  have hrun : (disk.isDirectory path).run.run t = (t.isDirectory path, t) := rfl
  rw [Disk.hasDirectory, runExcept_tryCatch, hrun]
  cases t.isDirectory path with
  | error failure => exact ⟨false, rfl, fun h => Bool.noConfusion h⟩
  | ok there => exact ⟨there, rfl, congrArg Except.ok⟩

/-- After `Disk.makeUnlessThere` has succeeded the path is a directory. The tree is kept even if it
fails. -/
theorem made_of_makeUnlessThere (h : (disk.makeUnlessThere path).run.run t = (answer, t')) :
    t.Keeps t' ∧ (answer = .ok () → t'.isDirectory path = .ok true) := by
  -- It is made, or it cannot be made and is asked for.
  rw [Disk.makeUnlessThere, runExcept_tryCatch, run_makeDirectory] at h
  cases hmade : t.makeDirectory path with
  | ok made =>
    rw [hmade] at h
    cases h
    obtain ⟨hkeeps, hthere⟩ := isDirectory_of_makeDirectory hmade
    exact ⟨hkeeps, fun _ => hthere⟩
  | error failure =>
    obtain ⟨there, hrun, hthere⟩ := run_hasDirectory t path
    rw [hmade] at h
    dsimp only at h
    rw [runExcept_bind, hrun] at h
    cases there with
    | true =>
      cases h
      exact ⟨.refl t, fun _ => hthere rfl⟩
    | false =>
      cases h
      exact ⟨.refl t, nofun⟩

/-- After `Disk.makeAll` has succeeded the first of the directories is there, unless its path is
empty. The tree is kept even if it fails. -/
theorem made_of_makeAll {paths : List String} (h : (disk.makeAll paths).run.run t = (answer, t')) :
    t.Keeps t' ∧ ∀ path, paths.head? = some path → path ≠ "" → answer = .ok () →
      t'.isDirectory path = .ok true := by
  induction paths generalizing t answer t' with
  | nil =>
    cases h
    exact ⟨.refl t, nofun⟩
  | cons path parents ih =>
    rw [Disk.makeAll] at h
    split at h
    · next hempty =>
      cases h
      refine ⟨.refl t, fun first hfirst hne => ?_⟩
      cases hfirst
      exact absurd (eq_of_beq hempty) hne
    · -- The first attempt keeps the tree whether it succeeds or not.
      rw [runExcept_tryCatch] at h
      rcases hfirst : (disk.makeUnlessThere path).run.run t with ⟨outcome, t₁⟩
      obtain ⟨hkeeps, hthere⟩ := made_of_makeUnlessThere hfirst
      rw [hfirst] at h
      cases outcome with
      | ok =>
        cases h
        exact ⟨hkeeps, fun first hhead _ _ => Option.some.inj hhead ▸ hthere rfl⟩
      | error failure =>
        dsimp only at h
        split at h
        · -- The directories above it are made, and then it is tried once more.
          rw [runExcept_bind] at h
          rcases habove : (disk.makeAll parents).run.run t₁ with ⟨outcome, t₂⟩
          have hparents := hkeeps.trans (ih habove).1
          rw [habove] at h
          cases outcome with
          | error failure =>
            cases h
            exact ⟨hparents, nofun⟩
          | ok =>
            obtain ⟨hagain, hthere⟩ := made_of_makeUnlessThere h
            exact ⟨hparents.trans hagain, fun first hhead _ hok =>
              Option.some.inj hhead ▸ hthere hok⟩
        · cases h
          exact ⟨hkeeps, nofun⟩

/-- `Disk.probe` leaves the tree as it was, with whatever answer. -/
theorem run_probe (t : Tree) (path : String) :
    ∃ answer, (disk.probe path).run.run t = (answer, t) := by
  -- The tree with the file in it is dropped, and only the outcome is looked at.
  have hrun : (disk.probe path).run.run t = (discard <| disk.ofExcept
      (t.write (join path (Disk.probeName ++ "XXXXXX")) ByteArray.empty)).run.run t := rfl
  rw [hrun]
  cases t.write (join path (Disk.probeName ++ "XXXXXX")) ByteArray.empty <;> exact ⟨_, rfl⟩

end

/-- Take a tree `t` on whose `disk` the directory `path` is ensured. Whatever the answer, `t'` keeps
all that is in `t`. If the call succeeds then `path` is a directory afterwards, and if it was one
before then `t'` is `t`: nothing is left of the file by which it is probed. -/
theorem ensured_of_ensureDirectory {answer : Except Error Bool}
    (h : (disk.ensureDirectory path).run.run t = (answer, t')) :
    t.Keeps t' ∧ ∀ existed, answer = .ok existed →
      (path ≠ "" → t'.isDirectory path = .ok true) ∧ (existed = true → t' = t) := by
  -- The question is asked for its outcome, so it never fails.
  have hasked : (liftM (n := ExceptT Error (StateM Tree)) (disk.isDirectory path).run).run.run t =
      (.ok (t.isDirectory path), t) := rfl
  rw [Disk.ensureDirectory, runExcept_bind, hasked] at h
  cases hpath : t.isDirectory path with
  | ok there =>
    rw [hpath] at h
    cases there with
    | true =>
      -- The directory is there, and only the probe can still refuse it.
      obtain ⟨outcome, hprobe⟩ := run_probe t path
      dsimp only at h
      rw [runExcept_bind, runExcept_adapt, hprobe] at h
      cases outcome with
      | ok =>
        cases h
        exact ⟨.refl t, fun _ _ => ⟨fun _ => hpath, fun _ => rfl⟩⟩
      | error failure =>
        cases h
        exact ⟨.refl t, nofun⟩
    | false =>
      cases h
      exact ⟨.refl t, nofun⟩
  | error failure =>
    rw [hpath] at h
    cases failure with
    | missing =>
      dsimp only at h
      rw [runExcept_bind, runExcept_adapt] at h
      -- Nothing is there, and the path itself stands first in the list of those that are made.
      rcases hmade : (disk.makeAll (withParents path)).run.run t with ⟨outcome, t₁⟩
      obtain ⟨hkeeps, hthere⟩ := made_of_makeAll hmade
      rw [hmade] at h
      cases outcome with
      | ok =>
        cases h
        refine ⟨hkeeps, fun existed hexisted => ?_⟩
        cases hexisted
        exact ⟨fun hne => hthere path rfl hne rfl, fun h => Bool.noConfusion h⟩
      | error failure =>
        cases h
        exact ⟨hkeeps, nofun⟩
    | _ =>
      cases h
      exact ⟨.refl t, nofun⟩

/-- A directory two levels down is made in a home that has nothing in it. -/
example : ((disk.ensureDirectory "apis/v1").run.run
    (plant { home := ["work"] } ["work"] .directory)).2.entries.map Prod.fst =
      [["work"], ["work", "apis"], ["work", "apis", "v1"]] := by decide +kernel

end ControllerTypes.Files.Tree
