import Reckoner.Node.Build
import Reckoner.Proofs.Reading.Scanning

/-!
# What reading keeps to

Reading a line changes the reader in three ways only: it passes characters, it
gives a name its value, and it warns of a group left open. A relation between
the readers before and after that each of these keeps to is kept to by reading
as a whole, whether it fails or not (`Build.Steady.keeps_build`).
-/

namespace Reckoner

namespace Build

variable {α β : Type} {r : Reader} {R : Reader → Reader → Prop}

/-! ## How the steps of building end -/

theorem ends_scan {s : Scan α} {Q : α → Reader → Prop} {E : Snag → Reader → Prop} :
    Ends (scan s) r Q E ↔
      Ends s r.rest (fun a rest => Q a { r with rest := rest })
        (fun snag rest => E snag { r with rest := rest }) := by
  simp only [Ends, scan]
  cases s r.rest <;> rfl

theorem ahead_eq (r : Reader) :
    ahead r = .ok (Text.skipBlanks r.rest) { r with rest := Text.skipBlanks r.rest } := rfl

theorem eq_of_ahead {text : List Char} {r' : Reader} (h : ahead r = .ok text r') :
    Text.skipBlanks r.rest = text ∧ { r with rest := Text.skipBlanks r.rest } = r' := by
  simpa [ahead_eq] using h

theorem ends_ahead {Q : List Char → Reader → Prop} {E : Snag → Reader → Prop} :
    Ends ahead r Q E ↔ Q (Text.skipBlanks r.rest) { r with rest := Text.skipBlanks r.rest } :=
  Iff.rfl

/-! ## Steady relations -/

variable [DigitLimit]

/-- All that reading does to a reader keeps to the relation. -/
structure Steady (R : Reader → Reader → Prop) : Prop where
  refl : ∀ r, R r r
  trans : ∀ {r r' r''}, R r r' → R r' r'' → R r r''
  pass : ∀ (r : Reader) {rest}, rest <:+ r.rest → R r { r with rest := rest }
  assign : ∀ (r : Reader) {q store}, r.store.assign q = .ok store → R r { r with store := store }
  warn : ∀ (r : Reader) {m}, m.severity = .warning → m.kind = some .unbalancedGroup →
    R r { r with messages := r.messages ++ [m] }

/-- From whatever reader, the step keeps to the relation. -/
def Keeps (R : Reader → Reader → Prop) (x : Build α) : Prop :=
  ∀ r, Ends x r (fun _ => R r) (fun snag r' => R r r' ∧ snag.IsOfReading)

namespace Steady

variable (hR : Steady R)
include hR

theorem bind {x : Build α} {f : α → Build β} (hx : Keeps R x) (hf : ∀ a, Keeps R (f a)) :
    Keeps R (x >>= f) := fun r =>
  ends_bind.2 ((hx r).mono
    (fun a r' h => (hf a r').mono (fun _ _ h' => hR.trans h h')
      (fun _ _ h' => h'.imp_left (hR.trans h)))
    (fun _ _ h => h))

theorem keeps_pure (a : α) : Keeps R (pure a) := fun r => hR.refl r

theorem keeps_get : Keeps R get := fun r => hR.refl r

theorem keeps_scan {s : Scan α} (hs : ∀ text, s.Moves text) (hlimited : ∀ text, s.Limited text) :
    Keeps R (scan s) := fun r =>
  ends_scan.2 (((hs r.rest).and (hlimited r.rest)).mono (fun _ _ h => hR.pass r h.1)
    fun _ _ h => h.imp_left (hR.pass r))

theorem keeps_ahead : Keeps R ahead := fun r =>
  hR.pass r (Text.suffix_skipBlanks r.rest)

theorem keeps_mention : Keeps R mention := by
  intro r
  refine ends_bind.2 (ends_get.2 (ends_bind.2 (ends_scan.2 ?_)))
  have hname := (Quantity.takes_readName r.store r.rest).moves.and
    (Quantity.limited_readName r.store r.rest)
  refine hname.mono (fun m rest h => ?_) (fun _ _ h => h.imp_left (hR.pass r))
  replace h := h.1
  cases m with
  | operand q => exact hR.pass r h
  | assignment q =>
    dsimp only
    split
    · rename_i hs
      exact hR.trans (hR.pass r h) (hR.assign { r with rest := rest } hs)
    · exact ⟨hR.pass r h, trivial⟩

theorem keeps_warnUnclosed (o : Operator) : Keeps R (warnUnclosed o) := fun r =>
  hR.warn r rfl rfl

/-! ## Reading as a whole -/

theorem keeps_proceed (node : Node) (ahead : Node.Ahead) : Keeps R (node.proceed ahead) := by
  cases ahead with
  | target =>
    exact hR.bind (hR.keeps_scan (fun text => (Quantity.takes_readTarget text).moves)
        Quantity.limited_readTarget)
      fun _ => hR.keeps_pure _
  | number =>
    exact hR.bind (hR.keeps_scan (fun text => (Quantity.takes_readLiteral text).moves)
        Quantity.limited_readLiteral)
      fun _ => hR.keeps_pure _
  | name =>
    refine hR.bind hR.keeps_mention fun q => ?_
    cases q <;> exact hR.keeps_pure _
  | operator o =>
    rw [Node.proceed]
    split
    · refine hR.bind (hR.keeps_scan (Scan.moves_drop _) fun _ => trivial) fun _ =>
        hR.bind hR.keeps_ahead fun _ => ?_
      split <;> exact hR.keeps_pure _
    · exact hR.keeps_pure _

theorem keeps_turn (node : Node) : Keeps R node.turn := by
  refine hR.bind hR.keeps_ahead fun text => ?_
  split
  · exact hR.keeps_pure _
  · exact hR.keeps_proceed _ _

theorem keeps_followed {readOn : Node → Build Node}
    {readGroup : Operator → List Node → Build (List Node)} (hnode : ∀ node, Keeps R (readOn node))
    (hgroup : ∀ o nodes, Keeps R (readGroup o nodes)) (turn : Node.Turn) :
    Keeps R (turn.followed readOn readGroup) := by
  cases turn with
  | done node => exact hR.keeps_pure _
  | again node => exact hnode node
  | nest node => exact hR.bind (hnode _) fun _ => hR.keeps_pure _
  | enter node o => exact hR.bind (hgroup o _) fun _ => hR.keeps_pure _

theorem keeps_reading (steps : Nat) :
    (∀ node, Keeps R (Node.readOn steps node)) ∧
      ∀ o state nodes, Keeps R (Node.readGroup steps o state nodes) := by
  -- Nodes and groups are read in terms of each other.
  induction steps with
  | zero => exact ⟨fun node => hR.keeps_pure node, fun _ _ nodes => hR.keeps_pure nodes⟩
  | succ steps ih =>
    obtain ⟨ihNode, ihGroup⟩ := ih
    constructor
    · exact fun node => hR.bind (hR.keeps_turn node)
        (hR.keeps_followed ihNode fun o => ihGroup o .initial)
    · intro o state nodes
      refine hR.bind hR.keeps_ahead fun text => ?_
      split
      · exact hR.bind (hR.keeps_warnUnclosed o) fun _ => hR.keeps_pure _
      · refine hR.bind (ihNode _) fun node => ?_
        split
        · exact hR.keeps_pure _
        · exact ihGroup _ _ _

theorem keeps_readLine (nodes : Nat) (node : Node) : Keeps R (Node.readLine nodes node) := by
  induction nodes generalizing node with
  | zero => exact hR.keeps_pure _
  | succ nodes ih =>
    refine hR.bind hR.keeps_get fun r => hR.bind ((hR.keeps_reading _).1 node) fun node =>
      hR.bind hR.keeps_ahead fun text => ?_
    split
    · exact hR.keeps_pure _
    · exact hR.bind (ih _) fun _ => hR.keeps_pure _

theorem keeps_build (seed : Option Quantity) : Keeps R (Node.build seed) :=
  hR.bind hR.keeps_get fun _ => hR.keeps_readLine _ _

end Steady

end Build

end Reckoner
