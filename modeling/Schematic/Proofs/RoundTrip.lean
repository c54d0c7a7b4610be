import Schematic.Proofs.Document
import Schematic.Proofs.Faithfulness
import Schematic.Proofs.Files
import Schematic.Proofs.Json
import Schematic.Proofs.Kept
import Schematic.Session
/-!
Saving and loading: a drawing that was made by editing, with coordinates on the grid, is read from
its own document as it is, whatever it was made from.
-/

namespace Schematic

open Document

theorem Document.checkEach_eq_ok {check : Nat → Value → Except Error Unit} {start : Nat}
    {vs : List Value} (each : ∀ v ∈ vs, ∀ i, check i v = .ok ()) :
    checkEach check start vs = .ok () := by
  induction vs generalizing start with
  | nil => rfl
  | cons v vs ih =>
      obtain ⟨first, rest⟩ := List.forall_mem_cons.1 each
      rw [checkEach, first]
      exact ih rest

namespace Pin

theorem IsStored.ofValue_toValue {p : Pin} (stored : p.IsStored) : ofValue p.toValue = .ok p := by
  obtain ⟨id, name, q, rfl, names⟩ := stored
  change Except.ok (named (.text id) (.text ((Value.text name).orElse (.text id)).shown)
    (.float q.x) (.float q.y)) = _
  have same : ((Value.text name).orElse (.text id)).shown = name := by
    rw [Value.orElse_text]
    split
    next unnamed => rw [unnamed, names unnamed, Value.shown_text]
    next => rfl
  rw [same, named_of_text names]

theorem IsStored.checkPin {p : Pin} (stored : p.IsStored) (component : Value) (j : Nat) :
    checkPin component j p.toValue = .ok () := by
  obtain ⟨id, name, q, rfl, _⟩ := stored
  rfl

end Pin

namespace Component

theorem given_of_mem_colors {s : String} (listed : s ∈ Palette.colors) :
    (Value.text s).given = true := by
  have given : ∀ s ∈ Palette.colors, (s != "") = true := by decide +kernel
  exact given s listed

theorem writtenColor_eq {color : Value}
    (coloured : color = .null ∨ ∃ s ∈ Palette.colors, color = .text s) :
    (if color.given then [("netColor", color)] else []) =
      match color with
      | .null => []
      | color => [("netColor", color)] := by
  obtain rfl | ⟨s, listed, rfl⟩ := coloured
  · rfl
  · exact if_pos (given_of_mem_colors listed)

theorem ofValue_of_pins {fields : List (String × Value)} {vs : List Value} {pins : List Pin}
    (found : fields.lookup "pins" = some (.list vs)) (each : vs.mapM Pin.ofValue = .ok pins) :
    ofValue (.record fields) = .ok
      { id := .text ((fields.lookup "id").getD (.text "")).shown
        type := .text ((fields.lookup "type").getD (.text "")).shown
        value := .text (((fields.lookup "value").getD .null).orElse (.text "")).shown
        pins
        name := match (fields.lookup "name").getD .null with
          | .null => .null
          | name => .text name.shown
        netColor := (fields.lookup "netColor").getD ((fields.lookup "net_color").getD .null) } := by
  have items := (holdsList_of_lookup found).items
  rw [listed_of_lookup found] at items
  change ((((fields.lookup "pins").getD .null).orElse (.list [])).items >>= fun vs =>
    vs.mapM Pin.ofValue >>= _) = _
  rw [items]
  change (vs.mapM Pin.ofValue >>= _) = _
  rw [each]
  rfl

theorem IsStored.ofValue_toValue {c : Component} (stored : c.IsStored) :
    ofValue c.toValue = .ok c := by
  obtain ⟨id, type, value, pins, name, netColor⟩ := c
  obtain ⟨⟨id, rfl⟩, ⟨type, rfl⟩, ⟨value, rfl⟩, pinsStored, named, coloured⟩ := stored
  have each : (pins.map Pin.toValue).mapM Pin.ofValue = .ok pins := by
    rw [Fault.mapM_eq_ok, List.map_map]
    exact List.map_congr_left fun p member => (pinsStored p member).ofValue_toValue
  have sameValue : ((Value.text value).orElse (.text "")).shown = value := by
    by_cases given : value = "" <;> simp [given, Value.orElse_text]
  dsimp only at named coloured
  rw [toValue, writtenColor_eq coloured]
  obtain rfl | ⟨name, rfl⟩ := named <;> obtain rfl | ⟨color, _, rfl⟩ := coloured
  all_goals
    refine Eq.trans (ofValue_of_pins rfl each) ?_
    change Except.ok (⟨_, _, .text ((Value.text value).orElse _).shown, _, _, _⟩ : Component) = _
    rw [sameValue]
    rfl

theorem IsStored.checkComponent {c : Component} (stored : c.IsStored) (i : Nat) :
    checkComponent i c.toValue = .ok () := by
  refine checkEach_eq_ok fun v member j => ?_
  obtain ⟨p, inC, rfl⟩ := List.mem_map.1 member
  exact (stored.pins p inC).checkPin c.id j

end Component

namespace Wire

def pointRecord (q : Point) : Value :=
  .record [("x", .float q.x), ("y", .float q.y)]

theorem toValue_mk (id : String) (points : List Point) :
    toValue ⟨.text id, points.map Point.toValue⟩ =
      .ok (.record [("id", .text id), ("points", .list (points.map pointRecord))]) := by
  refine Fault.bind_eq_ok.2 ⟨points.map pointRecord, Fault.mapM_eq_ok.2 ?_, rfl⟩
  rw [List.map_map, List.map_map]
  rfl

theorem ofValue_mk (id : String) (points : List Point) :
    ofValue (.record [("id", .text id), ("points", .list (points.map pointRecord))]) =
      .ok ⟨.text id, points.map Point.toValue⟩ := by
  have items := (@holdsList_of_lookup [("id", .text id), ("points", .list (points.map pointRecord))]
    "points" _ rfl).items
  have same : (points.map pointRecord).filterMap pointOfValue? = points.map Point.toValue := by
    rw [List.filterMap_map, ← List.filterMap_eq_map]
    rfl
  refine Fault.bind_eq_ok.2 ⟨_, rfl, Fault.bind_eq_ok.2 ⟨_, items, ?_⟩⟩
  change Except.ok (⟨_, (points.map pointRecord).filterMap _⟩ : Wire) = _
  rw [same]
  rfl

theorem IsStored.exists_toValue {w : Wire} (stored : w.IsStored) : ∃ v, w.toValue = .ok v := by
  obtain ⟨id, points, rfl⟩ := stored
  exact ⟨_, toValue_mk id points⟩

theorem IsStored.ofValue_toValue {w : Wire} (stored : w.IsStored) {v : Value}
    (made : w.toValue = .ok v) : ofValue v = .ok w := by
  obtain ⟨id, points, rfl⟩ := stored
  obtain rfl := Except.ok.inj ((toValue_mk id points).symm.trans made)
  exact ofValue_mk id points

theorem IsStored.checkWire {w : Wire} (stored : w.IsStored) {v : Value} (made : w.toValue = .ok v)
    (i : Nat) : checkWire i v = .ok () := by
  obtain ⟨id, points, rfl⟩ := stored
  obtain rfl := Except.ok.inj ((toValue_mk id points).symm.trans made)
  refine checkEach_eq_ok fun v member j => ?_
  obtain ⟨q, _, rfl⟩ := List.mem_map.1 member
  rfl

end Wire

namespace Drawing

variable {d : Drawing}

/-- The document of a drawing that is stored is accepted, and what is read from it is the drawing,
tidied again. -/
theorem IsStored.exists_toValue (stored : d.IsStored) :
    ∃ v, d.toValue = .ok v ∧ Document.check v = .ok () ∧ ofValue v = d.retidied := by
  obtain ⟨wires, made⟩ := Fault.exists_mapM fun w listed => (stored.wires w listed).exists_toValue
  have accepted : Document.check (.record
      [("components", .list (d.components.map Component.toValue)), ("wires", .list wires)]) =
        .ok () := by
    have components : checkEach checkComponent 1 (d.components.map Component.toValue) = .ok () := by
      refine checkEach_eq_ok fun v member i => ?_
      obtain ⟨c, listed, rfl⟩ := List.mem_map.1 member
      exact (stored.components c listed).checkComponent i
    change (checkEach checkComponent 1 _ >>= fun _ => checkEach checkWire 1 wires) = _
    rw [components]
    refine checkEach_eq_ok fun v member i => ?_
    obtain ⟨w, listed, madeW⟩ := Fault.exists_of_mem_mapM made member
    exact (stored.wires w listed).checkWire madeW i
  have components : (d.components.map Component.toValue).mapM component =
      d.components.mapM Component.tidy := by
    refine Fault.mapM_eq_mapM_of_mapM (Fault.mapM_eq_ok_map fun c _ => rfl) ?_
    rintro c listed _ ⟨⟩
    rw [component, (stored.components c listed).ofValue_toValue]
    rfl
  have wires' : wires.mapM wire = d.wires.mapM Wire.tidy := by
    refine Fault.mapM_eq_mapM_of_mapM made fun w listed v madeW => ?_
    rw [wire, (stored.wires w listed).ofValue_toValue madeW]
    rfl
  refine ⟨_, by rw [toValue, made]; rfl, accepted, ?_⟩
  rw [ofValue_eq_mapM (exists_lists accepted)]
  change ((d.components.map Component.toValue).mapM component >>= fun cs =>
    wires.mapM wire >>= fun ws => pure (Drawing.mk cs ws)) = _
  rw [components, wires', retidied]

theorem IsKept.exists_toValue (kept : d.IsKept) :
    ∃ v, d.toValue = .ok v ∧ Document.check v = .ok () ∧ ofValue v = .ok d := by
  obtain ⟨v, made, accepted, again⟩ := kept.isStored.exists_toValue
  exact ⟨v, made, accepted, again.trans kept.retidied⟩

/-- A drawing that is reached by adding, removing and loading, from the empty one, which clearing
gives again. -/
inductive Edited : Drawing → Prop
  | empty : Edited .empty
  | addComponent {d d' : Drawing} {c : Component} (edited : Edited d)
      (added : d.addComponent c = .ok d') : Edited d'
  | addWire {d d' : Drawing} {w : Wire} (edited : Edited d)
      (added : d.addWire w = .ok d') : Edited d'
  | removeComponent {d : Drawing} (edited : Edited d) (id : Value) : Edited (d.removeComponent id)
  | removeWire {d : Drawing} (edited : Edited d) (id : Value) : Edited (d.removeWire id)
  | load [Json.Limits] {s s' : Session} {fs : Files} {path : String} (edited : Edited s.drawing)
      (loaded : s.load fs path = .ok s') : Edited s'.drawing

end Drawing

namespace Session

variable {s s' : Session} {fs fs' : Files} {path content : String} {d : Drawing} {v : Value}

theorem mapError_eq_ok {ε ε' α : Type} {x : Except ε α} {f : ε → ε'} {a : α} :
    x.mapError f = .ok a ↔ x = .ok a := by
  cases x with
  | error e => exact iff_of_false nofun nofun
  | ok b => exact Iff.of_eq (by rw [Except.mapError, Except.ok.injEq, Except.ok.injEq])

theorem bind_mapError_eq_ok {ε ε' α β : Type} {x : Except ε α} {f : ε → ε'}
    {next : α → Except ε' β} {b : β} :
    (x.mapError f >>= next) = .ok b ↔ ∃ a, x = .ok a ∧ next a = .ok b := by
  cases x with
  | error e => exact iff_of_false nofun fun ⟨_, absent, _⟩ => nomatch absent
  | ok a =>
      constructor
      · exact fun made => ⟨a, rfl, made⟩
      · rintro ⟨_, ⟨⟩, made⟩
        exact made

theorem drawingOfText_eq_ok [Json.Limits] :
    drawingOfText content = .ok d ↔ ∃ v, Json.read (Text.unified content) = .ok v ∧
      Document.check v = .ok () ∧ Drawing.ofValue v = .ok d := by
  unfold drawingOfText
  rw [bind_mapError_eq_ok]
  refine exists_congr fun v => and_congr_right fun _ => ?_
  rw [bind_mapError_eq_ok]
  constructor
  · rintro ⟨_, accepted, made⟩
    exact ⟨accepted, mapError_eq_ok.1 made⟩
  · rintro ⟨accepted, made⟩
    exact ⟨(), accepted, mapError_eq_ok.2 made⟩

theorem load_eq_ok [Json.Limits] :
    s.load fs path = .ok s' ↔ ∃ content d, fs.read path = .ok content ∧
      drawingOfText content = .ok d ∧
        { s with drawing := d, current := some (Files.tidyPath path) } = s' := by
  unfold load
  rw [bind_mapError_eq_ok]
  refine exists_congr fun content => ?_
  rw [exists_and_left]
  refine and_congr_right fun _ => ?_
  cases drawingOfText content with
  | error e => exact iff_of_false nofun fun ⟨_, absent, _⟩ => nomatch absent
  | ok d =>
      constructor
      · exact fun made => ⟨d, rfl, Except.ok.inj made⟩
      · rintro ⟨_, ⟨⟩, rfl⟩
        rfl

theorem built_of_load [Json.Limits] (loaded : s.load fs path = .ok s') : s'.drawing.Built := by
  obtain ⟨content, d, _, made, rfl⟩ := load_eq_ok.1 loaded
  obtain ⟨v, _, accepted, made⟩ := drawingOfText_eq_ok.1 made
  exact Drawing.built_of_ofValue (exists_lists accepted) made

end Session

theorem Drawing.Edited.built {d : Drawing} (edited : d.Edited) : d.Built := by
  induction edited with
  | empty => exact .empty
  | addComponent _ added ih => exact ih.addComponent added
  | addWire _ added ih => exact ih.addWire added
  | removeComponent _ id ih =>
      exact .of_tidied (fun c member => ih.exists_component c (List.mem_of_mem_filter member))
        ih.exists_wire
  | removeWire _ id ih =>
      exact .of_tidied ih.exists_component
        fun w member => ih.exists_wire w (List.mem_of_mem_filter member)
  | load _ loaded => exact Session.built_of_load loaded

namespace Session

variable {s : Session}

theorem exists_save {v : Value} {fs emptied : Files} {path : String}
    (made : s.drawing.toValue = .ok v) (writes : fs.write path "" = .ok emptied) :
    ∃ saved, fs.write path (Json.write v) = .ok saved ∧
      s.save fs path = (.ok { s with current := some (Files.tidyPath path) }, saved) := by
  obtain ⟨saved, written⟩ : ∃ saved, fs.write path (Json.write v) = .ok saved :=
    Files.exists_write_of_write writes
  refine ⟨saved, written, ?_⟩
  rw [save, writes]
  dsimp only
  rw [made]
  dsimp only
  rw [written]

/-- A drawing made by editing, with coordinates on the grid, has a document that is accepted and
gives the drawing again, so that any session that loads what has been saved has the drawing. -/
theorem load_save [Json.Limits] (edited : s.drawing.Edited) (onGrid : s.drawing.OnGrid) :
    ∃ v, s.drawing.toValue = .ok v ∧ Document.check v = .ok () ∧
      Drawing.ofValue v = .ok s.drawing ∧
      (Json.ReadsBack v → ∀ fs path, (∃ emptied, fs.write path "" = .ok emptied) →
        fs.Holds path → ∃ saved,
          s.save fs path = (.ok { s with current := some (Files.tidyPath path) }, saved) ∧
          ∀ t : Session, ∃ t', t.load saved path = .ok t' ∧ t'.drawing = s.drawing ∧
            ∀ title, t'.drawing.compile title = s.drawing.compile title) := by
  obtain ⟨v, made, accepted, again⟩ := (edited.built.isKept onGrid).exists_toValue
  refine ⟨v, made, accepted, again, fun reads fs path ⟨_, writes⟩ holds => ?_⟩
  obtain ⟨saved, written, saves⟩ := exists_save made writes
  refine ⟨saved, saves, fun t => ⟨{ t with
    drawing := s.drawing, current := some (Files.tidyPath path) }, ?_, rfl, fun _ => rfl⟩⟩
  exact load_eq_ok.2 ⟨Json.write v, s.drawing, Files.read_write written holds,
    drawingOfText_eq_ok.2 ⟨v, reads, accepted, again⟩, rfl⟩

end Session

namespace Drawing

theorem Built.edited {d : Drawing} (built : d.Built) : d.Edited := by
  induction built with
  | empty => exact .empty
  | addComponent _ added ih => exact ih.addComponent added
  | addWire _ added ih => exact ih.addWire added

/-- A tinted node with a name, a resistor without one, and a wire between them. -/
def tintedNode : Drawing :=
  let place := fun x y : Nat => (⟨.lit x 0, .lit y (-1)⟩ : Point)
  { components := [
      ⟨.text "N1", .text "NET", .text "", [.at "1" (place 0 5)], .text "bus", .text "#da1e28"⟩,
      ⟨.text "R1", .text "R", .text "1k", [.at "1" (place 20 5), .at "2" (place 60 5)],
        .null, .null⟩]
    wires := [⟨.text "W1", [place 0 5, place 20 5].map Point.toValue⟩] }

theorem isKept_tintedNode : tintedNode.IsKept where
  components := by
    simp only [tintedNode, List.forall_mem_cons, List.not_mem_nil, false_implies, implies_true,
      and_true]
    refine ⟨⟨⟨_, rfl⟩, ⟨_, rfl⟩, ⟨_, rfl⟩, ?_, .inr ⟨_, rfl⟩, .inr ⟨_, by decide, rfl⟩⟩,
      ⟨_, rfl⟩, ⟨_, rfl⟩, ⟨_, rfl⟩, ?_, .inl rfl, .inl rfl⟩
    all_goals
      simp only [List.forall_mem_cons, List.not_mem_nil, false_implies, implies_true, and_true]
    · exact Pin.isKept_at "1" (by decide +kernel)
    · exact ⟨Pin.isKept_at "1" (by decide +kernel), Pin.isKept_at "2" (by decide +kernel)⟩
  wires := by
    intro w member
    obtain rfl := List.mem_singleton.1 member
    exact ⟨_, _, rfl, by decide +kernel⟩

end Drawing

namespace Session

theorem load_save_tintedNode :
    (ofDrawing .tintedNode).drawing.Edited ∧ (ofDrawing .tintedNode).drawing.OnGrid ∧
      ∃ saved, (ofDrawing .tintedNode).save .empty "node.json" =
          (.ok { ofDrawing .tintedNode with current := some "node.json" }, saved) ∧
        ∃ t, (ofDrawing .empty).load saved "node.json" = .ok t ∧ t.drawing = .tintedNode := by
  have kept := Drawing.isKept_tintedNode
  refine ⟨kept.built.edited, kept.onGrid, ?_⟩
  obtain ⟨v, made, _, _, reload⟩ :=
    load_save (s := ofDrawing .tintedNode) kept.built.edited kept.onGrid
  have reads : ∃ v, Drawing.tintedNode.toValue = .ok v ∧ Json.ReadsBack v :=
    ⟨_, rfl, by decide +kernel⟩
  obtain ⟨v', made', reads⟩ := reads
  obtain rfl := Except.ok.inj (made'.symm.trans made)
  have led : Files.empty.locate "node.json" = .ok ["node.json"] := by cbv
  have free : Files.fixed? ["node.json"] = none := by cbv
  obtain ⟨saved, saves, loads⟩ := reload reads .empty "node.json"
    ⟨_, Files.write_empty led free⟩ (Files.holds_of_locate led free)
  obtain ⟨t, loaded, same, _⟩ := loads (ofDrawing .empty)
  have tidied : Files.tidyPath "node.json" = "node.json" := by decide +kernel
  rw [tidied] at saves
  exact ⟨saved, saves, t, loaded, same⟩

end Session

end Schematic
