import SourceOutline.Files.Tree
import SourceOutline.Proofs.Path.Names

/-!
# Proper file trees and the listings of their directories

A file tree is proper (`FileTree.Entry.IsProper`) if what is in a directory has names, and no two of
them the same. Links may lead wherever they like. From a proper place every walk ends in a proper
place (`Place.IsProper.walk`), so what a path leads to is proper (`isProper_of_resolve?`).

A file system need not list the entries of a directory in the order in which a tree has them, and
need not look into directories with skipped names. `FileTree.Lists` relates an entry to all the
listings that may be given of it. That of the tree itself is one of them (`lists_listing`).
-/

namespace SourceOutline

namespace FileTree

variable {name : String} {entries : List (String × Entry)}

/-! ### Proper trees -/

/-- Entries whose directories have in them what has a name, and no name twice. -/
inductive Entry.IsProper : Entry → Prop
  | file {content : ByteArray} : IsProper (.file content)
  | link {target : String} : IsProper (.link target)
  | directory {entries : List (String × Entry)} (hdistinct : (entries.map (·.1)).Nodup)
    (hnames : ∀ entry ∈ entries, Path.IsName entry.1)
    (hentries : ∀ entry ∈ entries, IsProper entry.2) : IsProper (.directory entries)

theorem mem_of_find? {entry : Entry} (h : find? name entries = some entry) :
    (name, entry) ∈ entries := by
  obtain ⟨found, hfound, rfl⟩ := Option.map_eq_some_iff.mp h
  have hname : found.1 = name := by simpa using List.find?_some hfound
  rw [← hname]
  exact List.mem_of_find?_eq_some hfound

/-! ### Walks in proper trees -/

/-- Places in a proper tree. -/
structure Place.IsProper (place : Place) : Prop where
  here : place.here.IsProper
  around : ∀ outer ∈ place.around, outer.IsProper

variable {place found : Place}

/-- The top of a proper tree has no directory around it. -/
theorem Place.isProper_top {top : Entry} (htop : top.IsProper) : Place.IsProper ⟨top, []⟩ :=
  ⟨htop, fun _ houter => absurd houter List.not_mem_nil⟩

/-- A step from a proper place leads to one. -/
theorem Place.IsProper.step (h : place.IsProper) {segment : String}
    (hstep : place.step? segment = some found) : found.IsProper := by
  cases hhere : place.here with
  | file content => simp [Place.step?, hhere] at hstep
  | link target => simp [Place.step?, hhere] at hstep
  | directory entries =>
    have hproper := h.here
    rw [hhere] at hproper
    simp only [Place.step?, hhere] at hstep
    split at hstep
    · obtain rfl := Option.some_inj.mp hstep
      exact h
    split at hstep
    · -- Up: the directory around this one, or this one itself at the top.
      split at hstep
      · obtain rfl := Option.some_inj.mp hstep
        exact h
      · next outer others haround =>
        obtain rfl := Option.some_inj.mp hstep
        have hall := h.around
        rw [haround, List.forall_mem_cons] at hall
        exact ⟨hall.1, hall.2⟩
    · obtain ⟨entry, hfind, rfl⟩ := Option.map_eq_some_iff.mp hstep
      cases hproper with
      | directory hdistinct hnames hentries =>
        exact ⟨hentries _ (mem_of_find? hfind), List.forall_mem_cons.mpr
          ⟨.directory hdistinct hnames hentries, h.around⟩⟩

/-- Walking from a proper place leads to one, if following a link from a proper place does. -/
private theorem Place.IsProper.walkWith {follow : Place → String → List String → Option Place}
    (hfollow : ∀ {directory found : Place} {target : String} {rest : List String},
      directory.IsProper → follow directory target rest = some found → found.IsProper)
    {segments : List String} (h : place.IsProper)
    (hwalk : walkWith follow place segments = some found) : found.IsProper := by
  induction segments generalizing place with
  | nil =>
    obtain rfl := Option.some_inj.mp hwalk
    exact h
  | cons segment rest ih =>
    obtain ⟨next, hstep, hnext⟩ := Option.bind_eq_some_iff.mp hwalk
    -- A link is followed from the directory that it is in, which is where the step began.
    split at hnext
    · exact hfollow h hnext
    · exact ih (h.step hstep) hnext

/-- **Every walk from a proper place of a proper tree leads to a proper place**, however many links
it follows. -/
theorem Place.IsProper.walk {top : Entry} (htop : top.IsProper) {links : Nat}
    {segments : List String} (h : place.IsProper)
    (hwalk : walk top links place segments = some found) : found.IsProper := by
  -- Each link on the way leaves one less that may be followed.
  induction links generalizing place segments found with
  | zero => exact h.walkWith (fun _ hnone => by cases hnone) hwalk
  | succ links ih =>
    refine h.walkWith (fun hdirectory hfollowed => ih ?_ hfollowed) hwalk
    split
    · exact isProper_top htop
    · exact hdirectory

/-- What a path leads to in a proper tree is proper. -/
theorem isProper_of_resolve? {tree : FileTree} (htree : tree.top.IsProper) {path : String}
    {entry : Entry} (h : tree.resolve? path = some entry) : entry.IsProper := by
  obtain ⟨place, hplace, rfl⟩ := Option.map_eq_some_iff.mp h
  have hstart := Place.isProper_top htree
  unfold place? at hplace
  split at hplace
  · cases hplace
  split at hplace
  · exact (hstart.walk htree hplace).here
  · exact (hstart.walk htree hplace).here

/-! ### Listings -/

mutual

/-- The listings that a file system may give of an entry: what is in a directory comes in any
order. -/
inductive Lists (skipped : List String) : Entry → Listing → Prop
  | file {content : ByteArray} : Lists skipped (.file content) .file
  | link {target : String} : Lists skipped (.link target) .link
  | directory {entries order : List (String × Entry)} {listings : List (String × Listing)}
    (horder : entries.Perm order) (h : ListsAll skipped order listings) :
    Lists skipped (.directory entries) (.directory listings)

/-- The listings of entries one by one. What is in a directory with a skipped name may be listed in
any way, and need not be listed at all. -/
inductive ListsAll (skipped : List String) :
    List (String × Entry) → List (String × Listing) → Prop
  | nil : ListsAll skipped [] []
  | cons {name : String} {entry : Entry} {listing : Listing} {entries : List (String × Entry)}
    {listings : List (String × Listing)} (h : Lists skipped entry listing)
    (hrest : ListsAll skipped entries listings) :
    ListsAll skipped ((name, entry) :: entries) ((name, listing) :: listings)
  | skip {name : String} {inner entries : List (String × Entry)}
    {others listings : List (String × Listing)} (hskip : name ∈ skipped)
    (hrest : ListsAll skipped entries listings) :
    ListsAll skipped ((name, .directory inner) :: entries) ((name, .directory others) :: listings)

end

variable {skipped : List String} {listings : List (String × Listing)}

theorem ListsAll.map_fst (h : ListsAll skipped entries listings) :
    listings.map (·.1) = entries.map (·.1) := by
  induction listings generalizing entries with
  | nil => cases h with | nil => rfl
  | cons first rest ih =>
    cases h with
    | cons h hrest => rw [List.map_cons, List.map_cons, ih hrest]
    | skip hskip hrest => rw [List.map_cons, List.map_cons, ih hrest]

mutual

/-- **The listing that a tree gives of an entry is one that a file system may give.** -/
theorem lists_listing (skipped : List String) : (entry : Entry) → Lists skipped entry entry.listing
  | .file _ => .file
  | .link _ => .link
  | .directory entries => by
    rw [Entry.listing]
    exact .directory (List.Perm.refl entries) (listsAll_listings skipped entries)

theorem listsAll_listings (skipped : List String) :
    (entries : List (String × Entry)) → ListsAll skipped entries (Entry.listings entries)
  | [] => .nil
  | (_, entry) :: rest => .cons (lists_listing skipped entry) (listsAll_listings skipped rest)

end

end FileTree

end SourceOutline
