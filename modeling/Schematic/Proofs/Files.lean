import Schematic.Files
import Mathlib
/-!
What is written to a file can be read from it, and a file that has been written once can be written
again.
-/

namespace Schematic.Files

variable {fs fs' : Files} {place : List String} {path content : String}

theorem node_put_self (free : fixed? place = none) (found : Found) :
    (fs.put place found).node place = found := by
  have put : fs.put place found = ⟨fs.entries.put place found⟩ := by rw [Files.put, free]
  rw [put, node, free]
  dsimp only
  rw [Entries.get?_put_self, Option.getD_some]

theorem node_put_of_ne {other : List String} (apart : other ≠ place) (found : Found) :
    (fs.put place found).node other = fs.node other := by
  cases free : fixed? place with
  | some kept => rw [Files.put, free]
  | none =>
      have put : fs.put place found = ⟨fs.entries.put place found⟩ := by rw [Files.put, free]
      rw [put, node, node]
      dsimp only
      rw [Entries.get?_put_of_ne apart]

theorem node_empty (free : fixed? place = none) : empty.node place = .nothing := by
  rw [node, free]
  rfl

theorem node_empty_ne_folder (free : fixed? place = none) : empty.node place ≠ .folder := by
  intro folder
  cases (node_empty free).symm.trans folder

/-- Only folders and the empty device lie anywhere whatever has been written. -/
theorem fixed?_cases (place : List String) :
    fixed? place = none ∨ fixed? place = some .folder ∨ fixed? place = some (.text "") := by
  unfold fixed?
  split
  · exact .inr (.inl rfl)
  · split
    · exact .inr (.inl rfl)
    · exact .inl rfl
  · exact .inr (.inr rfl)
  · split
    · exact .inr (.inl rfl)
    · exact .inl rfl

theorem fixed?_eq_none (noFolder : fs.node place ≠ .folder)
    (noText : ∀ content, fs.node place ≠ .text content) : fixed? place = none := by
  rcases fixed?_cases place with free | folder | device
  · exact free
  · exact absurd (by rw [node, folder]) noFolder
  · exact absurd (by rw [node, device]) (noText "")

/-- Whether what is a folder is still one in other files. -/
def KeepsFolders (fs fs' : Files) : Prop :=
  ∀ place, fs.node place = .folder → fs'.node place = .folder

theorem keepsFolders_put (noFolder : fs.node place ≠ .folder) (found : Found) :
    fs.KeepsFolders (fs.put place found) := by
  intro other folder
  have apart : other ≠ place := by
    rintro rfl
    exact noFolder folder
  rw [node_put_of_ne apart, folder]

theorem KeepsFolders.follow (keeps : fs.KeepsFolders fs') {start place : List String}
    {names : List String} (led : fs.follow start names = .ok place) :
    fs'.follow start names = .ok place := by
  induction names generalizing start with
  | nil => exact led
  | cons n names ih =>
      rw [Files.follow] at led ⊢
      cases here : fs.node start with
      | folder =>
          rw [here] at led
          rw [keeps start here]
          dsimp only at led ⊢
          split at led
          · cases led
          · rw [if_neg ‹_›]
            exact ih led
      | text | nothing | unnameable =>
          rw [here] at led
          cases led

theorem KeepsFolders.locate (keeps : fs.KeepsFolders fs') (led : fs.locate path = .ok place) :
    fs'.locate path = .ok place := by
  unfold Files.locate at led ⊢
  split at led
  · cases led
  · split at led
    · cases led
    · rw [if_neg ‹_›, if_neg ‹_›]
      exact keeps.follow led

/-- Folders that have been made need not be made again. -/
theorem makeFolders_spec {start names : List String} (made : fs.makeFolders start names = .ok fs') :
    fs.KeepsFolders fs' ∧ ∀ later : Files, fs'.KeepsFolders later →
      later.makeFolders start names = .ok later := by
  induction names generalizing fs start with
  | nil =>
      obtain rfl := Except.ok.inj made
      exact ⟨fun _ folder => folder, fun _ _ => rfl⟩
  | cons n names ih =>
      rw [makeFolders] at made
      split at made
      next up =>
        obtain ⟨keeps, again⟩ := ih made
        refine ⟨keeps, fun later kept => ?_⟩
        rw [makeFolders, if_pos up]
        exact again later kept
      next down =>
        split at made
        next => cases made
        next short =>
          -- The way on is the same whether the next folder was there or has just been made.
          have further : ∀ {fs₁ : Files}, fs₁.node (start ++ [n]) = .folder →
              fs₁.KeepsFolders fs' → (∀ later : Files, fs'.KeepsFolders later →
                later.makeFolders (start ++ [n]) names = .ok later) →
              ∀ later : Files, fs'.KeepsFolders later →
                later.makeFolders start (n :: names) = .ok later := by
            intro fs₁ folder keeps again later kept
            rw [makeFolders, if_neg down, if_neg short]
            dsimp only
            rw [kept _ (keeps _ folder)]
            exact again later kept
          dsimp only at made
          cases here : fs.node (start ++ [n]) with
          | folder =>
              rw [here] at made
              obtain ⟨keeps, again⟩ := ih made
              exact ⟨keeps, further here keeps again⟩
          | text content =>
              rw [here] at made
              cases made
          | nothing | unnameable =>
              rw [here] at made
              obtain ⟨keeps, again⟩ := ih made
              have free : fixed? (start ++ [n]) = none :=
                fixed?_eq_none (by rw [here]; nofun) (by rw [here]; nofun)
              have added : fs.KeepsFolders (fs.put (start ++ [n]) .folder) :=
                keepsFolders_put (by rw [here]; nofun) .folder
              exact ⟨fun other folder => keeps other (added other folder),
                further (node_put_self free .folder) keeps again⟩

theorem write_eq_ok : fs.write path content = .ok fs' ↔
    ∃ place, fs.locate path = .ok place ∧ fs.node place ≠ .folder ∧
      fs.put place (.text content) = fs' := by
  unfold write
  cases led : fs.locate path with
  | error e =>
      refine iff_of_false (fun written => ?_) ?_
      · cases written
      · rintro ⟨_, absent, _⟩
        cases absent
  | ok place =>
      dsimp only [bind, Except.bind]
      cases here : fs.node place with
      | folder =>
          refine iff_of_false (fun written => ?_) ?_
          · cases written
          · rintro ⟨_, same, noFolder, _⟩
            obtain rfl := Except.ok.inj same
            exact noFolder here
      | text | nothing | unnameable =>
          constructor
          · intro written
            refine ⟨place, rfl, fun folder => ?_, Except.ok.inj written⟩
            cases here.symm.trans folder
          · rintro ⟨_, same, _, rfl⟩
            obtain rfl := Except.ok.inj same
            rfl

/-- Whether what is put where a path leads is held there: not so for the empty device. -/
def Holds (fs : Files) (path : String) : Prop :=
  ∀ place, fs.locate path = .ok place → fixed? place = none

theorem holds_of_locate (led : fs.locate path = .ok place) (free : fixed? place = none) :
    fs.Holds path := by
  intro other ledOther
  obtain rfl := Except.ok.inj (led.symm.trans ledOther)
  exact free

theorem write_empty (led : empty.locate path = .ok place) (free : fixed? place = none) :
    empty.write path content = .ok (empty.put place (.text content)) :=
  write_eq_ok.2 ⟨place, led, node_empty_ne_folder free, rfl⟩

theorem read_write (written : fs.write path content = .ok fs') (holds : fs.Holds path) :
    fs'.read path = .ok content := by
  obtain ⟨place, led, noFolder, rfl⟩ := write_eq_ok.1 written
  have led' := (keepsFolders_put noFolder (.text content)).locate led
  have here : (fs.put place (.text content)).node place = .text content :=
    node_put_self (holds place led) _
  rw [read, led']
  dsimp only [bind, Except.bind]
  rw [here]
  rfl

theorem exists_write_of_write {content' : String} (written : fs.write path content = .ok fs') :
    ∃ fs'', fs.write path content' = .ok fs'' := by
  obtain ⟨place, led, noFolder, _⟩ := write_eq_ok.1 written
  exact ⟨_, write_eq_ok.2 ⟨place, led, noFolder, rfl⟩⟩

theorem writeWithFolder_eq_ok : fs.writeWithFolder path content = .ok fs' ↔
    path.contains '\x00' = false ∧ ∃ made,
      fs.makeFolders (start path) (names path).dropLast = .ok made ∧
        made.write path content = .ok fs' := by
  unfold writeWithFolder
  cases nul : path.contains '\x00' with
  | true => exact ⟨nofun, nofun⟩
  | false =>
      change (fs.makeFolders (start path) (names path).dropLast >>= fun made =>
        made.write path content) = .ok fs' ↔ _
      cases fs.makeFolders (start path) (names path).dropLast with
      | error e => exact ⟨nofun, fun ⟨_, _, absent, _⟩ => nomatch absent⟩
      | ok made =>
          constructor
          · exact fun written => ⟨rfl, made, rfl, written⟩
          · rintro ⟨_, _, same, written⟩
            obtain rfl := Except.ok.inj same
            exact written

/-- Whether a path can be written, its folder being made, and does not lead to the empty device. -/
def IsWritable (fs : Files) (path : String) : Prop :=
  ∃ fs', fs.writeWithFolder path "" = .ok fs' ∧ fs'.Holds path

/-- What is written to a path is found there, and the path can be written again. -/
theorem IsWritable.exists_write (writable : fs.IsWritable path) (content : String) :
    ∃ fs', fs.writeWithFolder path content = .ok fs' ∧ fs'.find path = .text content ∧
      fs'.IsWritable path := by
  obtain ⟨_, written, holds⟩ := writable
  obtain ⟨noNul, made, folders, wrote⟩ := writeWithFolder_eq_ok.1 written
  obtain ⟨place, led, noFolder, rfl⟩ := write_eq_ok.1 wrote
  have free : fixed? place = none := holds place ((keepsFolders_put noFolder _).locate led)
  have keeps := keepsFolders_put noFolder (.text content)
  have led' := keeps.locate led
  have here : (made.put place (.text content)).node place = .text content :=
    node_put_self free _
  have noFolder' : (made.put place (.text content)).node place ≠ .folder := by
    rw [here]
    nofun
  refine ⟨_, writeWithFolder_eq_ok.2 ⟨noNul, made, folders,
    write_eq_ok.2 ⟨place, led, noFolder, rfl⟩⟩, ?_, ?_⟩
  · rw [find, led']
    exact here
  · exact ⟨_, writeWithFolder_eq_ok.2 ⟨noNul, _, (makeFolders_spec folders).2 _ keeps,
      write_eq_ok.2 ⟨place, led', noFolder', rfl⟩⟩,
      holds_of_locate ((keepsFolders_put noFolder' _).locate led') free⟩

end Schematic.Files
