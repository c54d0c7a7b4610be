import Schematic.Netlist.Element
import Schematic.Proofs.Entries
/-!
Look-up of texts among values, and the net that a pin is looked up as.
-/

namespace Schematic

theorem Value.same_text_left {v : Value} {s : String} : (text s).same v = true ↔ v = text s := by
  cases v with
  | text t =>
      rw [same_text, beq_iff_eq, text.injEq]
      exact eq_comm
  | _ => simp [same, integer?]

theorem Value.isExact_text (s : String) : Entries.IsExact (text s) where
  left := fun _ => same_text_right
  right := fun _ => same_text_left

theorem Entries.IsExact.pair {κ μ : Type} [BEq κ] [BEq μ] {k : κ} {m : μ} (first : IsExact k)
    (second : IsExact m) : IsExact (k, m) where
  left := by
    rintro ⟨j, l⟩
    rw [Prod.mk.injEq, ← first.left j, ← second.left l]
    exact Bool.and_eq_true_iff
  right := by
    rintro ⟨j, l⟩
    rw [Prod.mk.injEq, ← first.right j, ← second.right l]
    exact Bool.and_eq_true_iff

namespace PinNets

variable {ν : Type}

def Lists (n : Net ν) (component pin : String) : Prop :=
  ∃ t ∈ n.terminals, t.key = (component, pin)

instance (n : Net ν) (component pin : String) : Decidable (Lists n component pin) :=
  inferInstanceAs (Decidable (∃ t ∈ n.terminals, _))

/-- The last of the nets that list a pin of these ids. -/
def lastNet? (nets : List (Net ν)) (component pin : String) : Option (Net ν) :=
  nets.reverse.find? (Lists · component pin)

theorem exists_lastNet? {nets : List (Net ν)} {n : Net ν} (member : n ∈ nets) {component pin : String}
    (lists : Lists n component pin) :
    ∃ m ∈ nets, Lists m component pin ∧ lastNet? nets component pin = some m := by
  obtain ⟨m, last⟩ : ∃ m, lastNet? nets component pin = some m :=
    Option.isSome_iff_exists.1
      (List.find?_isSome.2 ⟨n, List.mem_reverse.2 member, decide_eq_true lists⟩)
  have found := List.find?_some (p := fun n => decide (Lists n component pin)) last
  exact ⟨m, List.mem_reverse.1 (List.mem_of_find?_eq_some last), of_decide_eq_true found, last⟩

theorem isExact_key (component pin : String) :
    Entries.IsExact (Value.text component, Value.text pin) :=
  (Value.isExact_text component).pair (Value.isExact_text pin)

theorem get?_foldl_put (es : PinNets) (terminals : List Terminal) (name component pin : String) :
    (terminals.foldl (fun es t => Entries.put es (.text t.component, .text t.pin) name) es).get?
        (.text component, .text pin) =
      if ∃ t ∈ terminals, t.key = (component, pin) then some name
      else es.get? (.text component, .text pin) := by
  induction terminals generalizing es with
  | nil => simp
  | cons t terminals ih =>
      rw [List.foldl_cons, ih, Entries.get?_put (isExact_key component pin)]
      have met : ((Value.text t.component, Value.text t.pin) == (Value.text component, Value.text pin))
          = true ↔ t.key = (component, pin) := by
        rw [(isExact_key component pin).left]
        simp [Terminal.key]
      simp only [met, List.mem_cons, exists_eq_or_imp]
      by_cases first : t.key = (component, pin)
      · simp [first]
      · simp [first]

theorem find?_ofNets {names : Entries String String} {nets : List (Net ν)}
    (named : ∀ n ∈ nets, ∃ a, names.get? n.id = some a ∧ a ≠ "") (component pin : String) :
    (ofNets names nets).find? (.text component) (.text pin) =
      (lastNet? nets component pin).bind fun n => names.get? n.id := by
  -- From the end, where entries take over.
  induction nets using List.reverseRecOn with
  | nil => rfl
  | append_singleton nets n ih =>
      obtain ⟨a, isNamed, given⟩ := named n (by simp)
      have before := ih fun m member => named m (List.mem_append_left _ member)
      have step : ofNets names (nets ++ [n]) = n.terminals.foldl
          (fun es t => Entries.put es (.text t.component, .text t.pin) a) (ofNets names nets) := by
        rw [ofNets, List.foldl_append]
        simp only [List.foldl_cons, List.foldl_nil, isNamed, if_neg given]
        rfl
      rw [find?, step, get?_foldl_put, lastNet?, List.reverse_append, List.reverse_singleton,
        List.singleton_append, List.find?_cons]
      split
      next lists =>
        rw [decide_eq_true (p := Lists n component pin) lists]
        exact isNamed.symm
      next absent =>
        rw [decide_eq_false (p := Lists n component pin) absent]
        exact before

end PinNets

end Schematic
