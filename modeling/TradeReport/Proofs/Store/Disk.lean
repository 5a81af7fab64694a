import TradeReport.Proofs.Outcome
import TradeReport.Proofs.Table
import TradeReport.Store.Disk
/-!
# Files that are appended to

What is put at one place leaves what was found at every other (`find_put_ne`), and as long as that place was no folder,
paths lead where they led (`place_put`). A file that was appended to is read as its old text with the new at its end
(`read_append`).
-/

namespace TradeReport.Disk

variable {disk after : Disk} {path other place : Path} {node found : Node} {written more : String} {text : List Char}

/-! ## Places -/

theorem find_of_get? (h : disk.nodes.get? path = some node) : disk.find path = .ok node := by
  rw [find, h]

theorem find_put_self : (disk.put path node).find path = .ok node :=
  find_of_get? Table.get?_put_self

/-- Without an entry of its own, a place is a folder or there is nothing. -/
theorem find_eq_ok_of_get?_none (h : disk.nodes.get? path = none) :
    disk.find path = .ok found ↔
      found = .folder ∧ (path.isOutside || disk.nodes.keys.any (path.isPrefixOf ·)) = true := by
  rw [find, h]
  dsimp only
  split
  · rename_i hfolder
    rw [Except.ok.injEq]
    exact ⟨fun hfound => ⟨hfound.symm, hfolder⟩, fun hboth => hboth.1.symm⟩
  · rename_i hnone
    constructor
    · intro hfound
      split at hfound <;> cases hfound
    · exact fun hboth => absurd hboth.2 hnone

/-- What was found at a place stays when something is put at another. -/
theorem find_put_ne (hne : other ≠ path) (h : disk.find other = .ok found) :
    (disk.put path node).find other = .ok found := by
  have hget : (disk.put path node).nodes.get? other = disk.nodes.get? other := Table.get?_put_ne hne
  cases hother : disk.nodes.get? other with
  | some kept =>
    rw [find_of_get? hother] at h
    rw [find_of_get? (hget.trans hother), h]
  | none =>
    rw [find_eq_ok_of_get?_none hother, Bool.or_eq_true, List.any_eq_true] at h
    rw [find_eq_ok_of_get?_none (hget.trans hother), Bool.or_eq_true, List.any_eq_true]
    obtain ⟨hfound, hfolder⟩ := h
    refine ⟨hfound, hfolder.imp_right fun hbelow => ?_⟩
    obtain ⟨key, hkey, hprefix⟩ := hbelow
    exact ⟨key, Table.mem_keys_put.2 (.inr hkey), hprefix⟩

theorem needFolder_eq_ok : disk.needFolder path = .ok () ↔ disk.find path = .ok .folder := by
  rw [needFolder, bind_eq_ok]
  constructor
  · rintro ⟨_ | content, hfind, hneed⟩
    · exact hfind
    · cases hneed
  · exact fun hfind => ⟨.folder, hfind, rfl⟩

/-! ## Paths -/

theorem follow_down {name : String} (h : leadsDown name = true) (start : Path) (names : List String) :
    disk.follow start (name :: names) = disk.follow (start ++ [name]) names := by
  rw [follow, if_pos h]

private theorem follow_stay {name : String} (h : ¬leadsDown name = true) (start : Path) (names : List String) :
    disk.follow start (name :: names) = disk.needFolder start >>= fun _ =>
      if name.utf8ByteSize > longestName then .error .nameTooLong
      else disk.follow (if name = ".." then start.above else start) names := by
  rw [follow, if_neg h]
  rfl

theorem follow_append (start : Path) (front back : List String) :
    disk.follow start (front ++ back) = disk.follow start front >>= fun middle => disk.follow middle back := by
  induction front generalizing start with
  | nil => rfl
  | cons name front ih =>
    rw [List.cons_append]
    by_cases hname : leadsDown name = true
    · rw [follow_down hname, follow_down hname, ih]
    · rw [follow_stay hname, follow_stay hname, bind_assoc]
      refine bind_congr fun _ => ?_
      split
      · rfl
      · exact ih _

theorem follow_put (hpath : disk.find path ≠ .ok .folder) {start : Path} {names : List String}
    (h : disk.follow start names = .ok place) : (disk.put path node).follow start names = .ok place := by
  induction names generalizing start with
  | nil => exact h
  | cons name names ih =>
    by_cases hname : leadsDown name = true
    · rw [follow_down hname] at h ⊢
      exact ih h
    · rw [follow_stay hname] at h ⊢
      obtain ⟨⟨⟩, hneed, hrest⟩ := bind_eq_ok.1 h
      have hfolder := needFolder_eq_ok.1 hneed
      have hne : start ≠ path := by
        rintro rfl
        exact hpath hfolder
      refine bind_eq_ok.2 ⟨(), needFolder_eq_ok.2 (find_put_ne hne hfolder), ?_⟩
      split at hrest
      · cases hrest
      · rename_i hfits
        rw [if_neg hfits]
        exact ih hrest

theorem place_put (hpath : disk.find path ≠ .ok .folder) (h : disk.place written = .ok place) :
    (disk.put path node).place written = .ok place := by
  obtain ⟨⟨start, names⟩, hnames, hfollow⟩ := bind_eq_ok.1 h
  exact bind_eq_ok.2 ⟨⟨start, names⟩, hnames, follow_put hpath hfollow⟩

/-! ## Places in a folder -/

private theorem namesBetweenSlashes_ne_nil (path : List Char) : namesBetweenSlashes path ≠ [] := by
  cases path with
  | nil => exact List.cons_ne_nil _ _
  | cons c rest =>
    rw [namesBetweenSlashes]
    split
    · exact List.cons_ne_nil _ _
    · split <;> exact List.cons_ne_nil _ _

theorem namesBetweenSlashes_name {name : List Char} (h : '/' ∉ name) : namesBetweenSlashes name = [name] := by
  induction name with
  | nil => rfl
  | cons c name ih =>
    rw [List.mem_cons, not_or] at h
    rw [namesBetweenSlashes, if_neg (Ne.symm h.1), ih h.2]

theorem namesBetweenSlashes_append (folder : List Char) {name : List Char} (h : '/' ∉ name) :
    namesBetweenSlashes (folder ++ '/' :: name) = namesBetweenSlashes folder ++ [name] := by
  induction folder with
  | nil => exact congrArg ([] :: ·) (namesBetweenSlashes_name h)
  | cons c folder ih =>
    rw [List.cons_append, namesBetweenSlashes, namesBetweenSlashes, ih]
    split
    · rfl
    · cases hnames : namesBetweenSlashes folder with
      | nil => exact absurd hnames (namesBetweenSlashes_ne_nil folder)
      | cons first more => rfl

/-- Names that something in a folder can have. -/
structure IsEntry (name : String) : Prop where
  leadsDown : leadsDown name = true
  slash : '/' ∉ name.toList
  nul : '\x00' ∉ name.toList

theorem namesOf_eq_ok {names : List String} : namesOf written = .ok (path, names) ↔
    '\x00' ∉ written.toList ∧ written ≠ "" ∧ written.utf8ByteSize ≤ longestPath ∧
      path = (if written.toList.head? = some '/' then ["/"] else []) ∧
      names = (namesBetweenSlashes written.toList).map String.ofList := by
  rw [namesOf]
  split
  · rename_i hnul
    exact ⟨nofun, fun h => absurd (List.contains_iff_mem.1 hnul) h.1⟩
  · rename_i hnul
    split
    · rename_i hempty
      exact ⟨nofun, fun h => absurd hempty h.2.1⟩
    · rename_i hempty
      split
      · rename_i hlong
        exact ⟨nofun, fun h => absurd hlong (Nat.not_lt.2 h.2.2.1)⟩
      · rename_i hlong
        rw [Except.ok.injEq, Prod.mk.injEq, eq_comm, eq_comm (b := names)]
        exact ⟨fun h => ⟨fun hmem => hnul (List.contains_iff_mem.2 hmem), hempty, Nat.not_lt.1 hlong, h⟩,
          fun h => h.2.2.2⟩

private theorem namesOf_append {folder name : String} {names : List String} (hname : IsEntry name)
    (h : namesOf folder = .ok (path, names)) {names' : List String} :
    namesOf (folder ++ "/" ++ name) = .ok (place, names') ↔
      (folder ++ "/" ++ name).utf8ByteSize ≤ longestPath ∧ place = path ∧ names' = names ++ [name] := by
  obtain ⟨hnul, hempty, -, hpath, hnames⟩ := namesOf_eq_ok.1 h
  have hchars : (folder ++ "/" ++ name).toList = folder.toList ++ '/' :: name.toList := by
    rw [String.toList_append, String.toList_append, List.append_assoc]
    rfl
  have hhead : (folder ++ "/" ++ name).toList.head? = folder.toList.head? := by
    rw [hchars, List.head?_append_of_ne_nil _ (by simpa using hempty)]
  have hnul' : '\x00' ∉ folder.toList ++ '/' :: name.toList := by
    rw [List.mem_append, List.mem_cons]
    rintro (hmem | hslash | hmem)
    · exact hnul hmem
    · exact absurd hslash (by decide)
    · exact hname.nul hmem
  have hempty' : folder ++ "/" ++ name ≠ "" := by
    intro hnone
    rw [hnone] at hchars
    exact absurd hchars.symm (by simp)
  rw [namesOf_eq_ok, hhead, ← hpath, hchars, namesBetweenSlashes_append _ hname.slash, List.map_append, ← hnames,
    List.map_singleton, String.ofList_toList]
  exact ⟨fun hall => hall.2.2, fun hrest => ⟨hnul', hempty', hrest⟩⟩

/-- A path with one more name leads into the folder, if it is not too long. -/
theorem place_append {folder name : String} (hname : IsEntry name) (h : disk.place folder = .ok path) :
    disk.place (folder ++ "/" ++ name) = .ok place ↔
      (folder ++ "/" ++ name).utf8ByteSize ≤ longestPath ∧ place = path ++ [name] := by
  obtain ⟨⟨start, names⟩, hnames, hfollow⟩ := bind_eq_ok.1 h
  have hdown : disk.follow start (names ++ [name]) = .ok (path ++ [name]) := by
    rw [follow_append, bind_eq_ok]
    exact ⟨path, hfollow, by rw [follow_down hname.leadsDown, follow]⟩
  constructor
  · intro hplace
    obtain ⟨⟨start', names'⟩, hnames', hfollow'⟩ := bind_eq_ok.1 hplace
    obtain ⟨hfits, rfl, rfl⟩ := (namesOf_append hname hnames).1 hnames'
    exact ⟨hfits, Except.ok.inj (hfollow'.symm.trans hdown)⟩
  · rintro ⟨hfits, rfl⟩
    exact bind_eq_ok.2 ⟨_, (namesOf_append hname hnames).2 ⟨hfits, rfl, rfl⟩, hdown⟩

/-! ## Texts -/

theorem read_eq_ok : disk.read written = .ok text ↔
    ∃ path, disk.place written = .ok path ∧ disk.find path = .ok (.file (.text text)) := by
  rw [read, bind_eq_ok]
  constructor
  · rintro ⟨_ | (chars | bytes), hlook, hread⟩
    · cases hread
    · obtain ⟨path, hplace, hfind⟩ := bind_eq_ok.1 hlook
      rw [← pure_eq_ok.1 hread]
      exact ⟨path, hplace, hfind⟩
    · cases hread
  · rintro ⟨path, hplace, hfind⟩
    exact ⟨_, bind_eq_ok.2 ⟨path, hplace, hfind⟩, rfl⟩

theorem isThere_of_look (h : disk.look written = .ok node) : disk.isThere written = true := by
  rw [isThere, h]
  rfl

theorem isFolder_iff :
    disk.isFolder written = true ↔ ∃ path, disk.place written = .ok path ∧ disk.find path = .ok .folder := by
  rw [← bind_eq_ok, isFolder]
  change _ ↔ disk.look written = .ok .folder
  split
  · rename_i hlook
    exact ⟨fun _ => hlook, fun _ => rfl⟩
  · rename_i hlook
    exact ⟨nofun, fun hfolder => absurd hfolder hlook⟩

theorem isThere_of_read (h : disk.read written = .ok text) : disk.isThere written = true := by
  obtain ⟨node, hlook, -⟩ := bind_eq_ok.1 h
  exact isThere_of_look hlook

/-- What a file holds after more text, given what was found where it is. -/
def appended (more : String) : Except DiskError Node → Content
  | .ok (.file content) => content.append more
  | _ => .ofText more

theorem append_eq_ok : disk.append written more = .ok after ↔
    ∃ path, disk.place written = .ok path ∧ disk.find path.dropLast = .ok .folder ∧
      disk.find path ≠ .ok .folder ∧ after = disk.put path (.file (appended more (disk.find path))) := by
  rw [append, bind_eq_ok]
  refine exists_congr fun path => and_congr_right fun _ => ?_
  rw [bind_eq_ok]
  constructor
  · rintro ⟨⟨⟩, hneed, hrest⟩
    refine ⟨needFolder_eq_ok.1 hneed, ?_⟩
    split at hrest
    · cases hrest
    · rename_i content hfile
      rw [hfile]
      exact ⟨nofun, (pure_eq_ok.1 hrest).symm⟩
    · rename_i cause hnone
      rw [hnone]
      exact ⟨nofun, (pure_eq_ok.1 hrest).symm⟩
  · rintro ⟨hfolder, hpath, rfl⟩
    refine ⟨(), needFolder_eq_ok.2 hfolder, ?_⟩
    split
    · rename_i hfind
      exact absurd hfind hpath
    · rename_i content hfile
      rw [hfile]
      rfl
    · rename_i cause hnone
      rw [hnone]
      rfl

theorem read_append (htext : disk.read written = .ok text) (h : disk.append written more = .ok after) :
    after.read written = .ok (text ++ more.toList) := by
  obtain ⟨path, hplace, hfile⟩ := read_eq_ok.1 htext
  obtain ⟨path', hplace', -, hpath, rfl⟩ := append_eq_ok.1 h
  obtain rfl : path = path' := Except.ok.inj (hplace.symm.trans hplace')
  rw [read_eq_ok]
  exact ⟨path, place_put hpath hplace, by rw [hfile, find_put_self]; rfl⟩

theorem read_append_of_not_isThere (hnew : disk.isThere written = false) (h : disk.append written more = .ok after) :
    after.read written = .ok more.toList := by
  obtain ⟨path, hplace, -, hpath, rfl⟩ := append_eq_ok.1 h
  rw [read_eq_ok]
  refine ⟨path, place_put hpath hplace, ?_⟩
  cases hfind : disk.find path with
  | ok node =>
    rw [isThere_of_look (bind_eq_ok.2 ⟨path, hplace, hfind⟩)] at hnew
    cases hnew
  | error cause =>
    rw [find_put_self]
    rfl

end TradeReport.Disk
