import JsxLowering.Proofs.Shapes
import JsxLowering.Source.Function

/-!
# What a reader gives

`Gives reader P` says that every value that the reader gives satisfies `P`, whatever text it is read
from. There is one rule for each way in which readers are put together, so that a proof about a
reader follows it step by step.

`Goal.kind` says what a tree is that is read for a goal. Readers for all goals that keep to it are
sound, and what they read is shaped.
-/

namespace JsxLowering.Source

/-- Every value that a reader gives satisfies `P`. -/
def Gives {α : Type} (reader : Reader α) (P : α → Prop) : Prop :=
  ∀ cs value rest, reader cs = some (value, rest) → P value

namespace Gives

section
variable {α β : Type} {P P' : α → Prop} {Q : β → Prop} {reader other : Reader α} {before : Reader β}
  {next : β → Reader α}

/-- A reader gives what is said of it less exactly. -/
theorem imp (h : Gives reader P) (hp : ∀ value, P value → P' value) : Gives reader P' :=
  fun cs value rest hr => hp value (h cs value rest hr)

theorem pure {value : α} (h : P value) : Gives (Pure.pure value) P := by
  intro cs found rest hr
  cases hr
  exact h

theorem failure : Gives (Alternative.failure : Reader α) P := nofun

/-- What comes after a value may use what is known of it. -/
theorem bind (hb : Gives before Q) (hn : ∀ value, Q value → Gives (next value) P) :
    Gives (before >>= next) P := by
  intro cs value rest h
  obtain ⟨⟨first, mid⟩, hf, h⟩ := Option.bind_eq_some_iff.mp h
  exact hn first (hb cs first mid hf) mid value rest h

/-- A step of which nothing needs to be known. -/
theorem skip (h : ∀ value, Gives (next value) P) : Gives (before >>= next) P :=
  bind (fun _ _ _ _ => trivial) fun value (_ : True) => h value

theorem map {f : β → α} (hb : Gives before Q) (hf : ∀ value, Q value → P (f value)) :
    Gives (f <$> before) P := hb.bind fun value hv => .pure (hf value hv)

/-- Both ways of reading have to give what is claimed. -/
theorem orElse (h : Gives reader P) (ho : Gives other P) : Gives (reader <|> other) P := by
  intro cs value rest hr
  change (reader cs <|> other cs) = some (value, rest) at hr
  rcases Option.or_eq_some_iff.mp ((Option.orElse_eq_or ..).symm.trans hr) with hr | ⟨-, hr⟩
  · exact h cs value rest hr
  · exact ho cs value rest hr

theorem ite {condition : Prop} [Decidable condition] (h : Gives reader P) (ho : Gives other P) :
    Gives (if condition then reader else other) P := by
  split
  · exact h
  · exact ho

/-- A value that is read in one of two ways. -/
theorem choose {condition : Prop} [Decidable condition] {first second : Reader β}
    (hf : Gives first Q) (hs : Gives second Q) (hn : ∀ value, Q value → Gives (next value) P) :
    Gives (if condition then first >>= next else second >>= next) P :=
  ite (hf.bind hn) (hs.bind hn)

/-- A value that is read in one of two ways, of which nothing needs to be known. -/
theorem skipEither {condition : Prop} [Decidable condition] {first second : Reader β}
    (h : ∀ value, Gives (next value) P) :
    Gives (if condition then first >>= next else second >>= next) P := ite (skip h) (skip h)

/-- A step that is only taken under a condition, and of which nothing needs to be known. -/
theorem skipIf {condition : Prop} [Decidable condition] (h : Gives reader P) :
    Gives (if condition then before >>= fun _ => reader else reader) P := ite (skip fun _ => h) h

/-- An attempt gives a value of its reader or none. -/
theorem attempt (h : Gives reader P) :
    Gives (Source.attempt reader) fun found => ∀ value ∈ found, P value := by
  intro cs found rest hr
  unfold Source.attempt at hr
  cases hv : reader cs with
  | none =>
    rw [hv] at hr
    cases hr
    exact nofun
  | some result =>
    rw [hv] at hr
    cases hr
    intro value hm
    cases hm
    exact h cs _ _ hv

/-- A tree of one kind is read where one of a wider kind is asked for. -/
theorem weaken {reader : Reader Tree} {kind other : Tree → Prop} (h : Gives reader (Shaped kind))
    (hk : ∀ tree, kind tree → other tree) : Gives reader (Shaped other) :=
  h.imp fun tree ht => ht.imp (hk tree)

end

/-! ## Lists -/

section
variable {α : Type} {P : α → Prop} {item : Reader α}

/-- Every item up to the closing mark is one that the reader of items gives. -/
theorem itemsFrom (close : Char) (h : Gives item P) (fuel : Nat) :
    Gives (Source.itemsFrom close item fuel) fun found => ∀ value ∈ found, P value := by
  -- each round takes the first item and leaves the others to the next
  induction fuel with
  | zero => exact .failure
  | succ fuel ih =>
    refine .skip fun _ => .ite (.pure (List.forall_mem_nil _)) ?_
    refine .bind h fun first hf => .bind ih fun rest hr => ?_
    exact .pure (List.forall_mem_cons.mpr ⟨hf, hr⟩)

theorem items (close : Char) (h : Gives item P) :
    Gives (Source.items close item) fun found => ∀ value ∈ found, P value :=
  fun cs => itemsFrom close h (cs.length + 1) cs

/-- Commas between items change nothing. -/
theorem listFrom (close : Char) (h : Gives item P) (fuel : Nat) :
    Gives (Source.listFrom close item fuel) fun found => ∀ value ∈ found, P value := by
  induction fuel with
  | zero => exact .failure
  | succ fuel ih =>
    refine .skip fun _ => .ite (.pure (List.forall_mem_nil _)) ?_
    refine .bind h fun first hf => .skip fun _ => .ite ?_ ?_
    · exact .bind ih fun rest hr => .pure (List.forall_mem_cons.mpr ⟨hf, hr⟩)
    · exact .skip fun _ => .pure (List.forall_mem_singleton.mpr hf)

theorem list (close : Char) (h : Gives item P) :
    Gives (Source.list close item) fun found => ∀ value ∈ found, P value :=
  fun cs => listFrom close h (cs.length + 1) cs

/-- One or more items, each of which the reader of items gives. -/
theorem commaFrom (h : Gives item P) (fuel : Nat) :
    Gives (Source.commaFrom item fuel) fun found => ∀ value ∈ found, P value := by
  induction fuel with
  | zero => exact .failure
  | succ fuel ih =>
    refine .bind h fun first hf => .skip fun _ => .ite ?_ ?_
    · exact .bind ih fun rest hr => .pure (List.forall_mem_cons.mpr ⟨hf, hr⟩)
    · exact .pure (List.forall_mem_singleton.mpr hf)

theorem commas (h : Gives item P) :
    Gives (Source.commas item) fun found => ∀ value ∈ found, P value :=
  fun cs => commaFrom h (cs.length + 1) cs

end

end Gives

/-! ## Goals -/

/-- What a tree is that is read for a goal: a statement, a pattern, or else something inert. -/
def Goal.kind : Goal → Tree → Prop
  | .statement _ | .item => Tree.IsStatement
  | .binding => Tree.IsPattern
  | _ => Tree.IsInert

/-- A reader for every goal gives trees of the kind of the goal, with shaped nodes. -/
def Grammar.IsSound (reader : Grammar) : Prop :=
  ∀ mode goal, Gives (reader mode goal) (Shaped goal.kind)

section
variable {self : Grammar}

/-- What is read for a goal that is neither a statement nor a pattern is inert. -/
theorem Grammar.IsSound.value (h : self.IsSound) (mode : Mode) (goal : Goal)
    (hg : goal.kind = Tree.IsInert) : Gives (self mode goal) (Shaped Tree.IsInert) :=
  hg ▸ h mode goal

theorem Grammar.IsSound.binding (h : self.IsSound) (mode : Mode) :
    Gives (self mode .binding) (Shaped Tree.IsPattern) := h mode .binding

theorem Grammar.IsSound.statement (h : self.IsSound) (mode : Mode) (nested : Bool) :
    Gives (self mode (.statement nested)) (Shaped Tree.IsStatement) := h mode (.statement nested)

theorem Grammar.IsSound.item (h : self.IsSound) (mode : Mode) :
    Gives (self mode .item) (Shaped Tree.IsStatement) := h mode .item

end

end JsxLowering.Source
