import HostMethods.Proofs.Descriptor.Unambiguous
import HostMethods.Proofs.Text.Slices

/-!
# Selectors identify methods

Name and descriptor may be kept joined, in one text, together with the number of bytes that the
name takes (`JoinedSelector`). A joined text alone does not say where the name ends: a name may
hold a parenthesis, and the text `f(LI(La;)V` is that of a method `f` as well as that of a method
`f(LI`. With the length of the name it does. Both parts are cut out of the text again
(`Selector.name?_joined`, `Selector.descriptor?_joined`), so nothing is lost by joining them, and
joined selectors agree exactly if the selectors do (`Selector.joined_inj`).

What a selector says about a method is then a matter of descriptors, which are told apart by
`Signature.text_inj`.
-/

namespace HostMethods

/-- A selector with its two parts in one text. -/
structure JoinedSelector where
  /-- The name, and behind it the text of the signature. -/
  text : String
  /-- The number of bytes of the name. -/
  nameSize : Nat
  deriving DecidableEq

namespace JoinedSelector

/-- The name: the text up to its length. -/
def name? (j : JoinedSelector) : Option String :=
  slice? j.text 0 j.nameSize

/-- The descriptor: the text behind the name. -/
def descriptor? (j : JoinedSelector) : Option String :=
  slice? j.text j.nameSize j.text.utf8ByteSize

end JoinedSelector

namespace Selector

/-- The selector with its parts joined. -/
def joined (s : Selector) : JoinedSelector :=
  ⟨s.text, s.name.utf8ByteSize⟩

@[simp]
theorem name?_joined (s : Selector) : s.joined.name? = some s.name :=
  slice?_append_left s.name s.descriptor

@[simp]
theorem descriptor?_joined (s : Selector) : s.joined.descriptor? = some s.descriptor :=
  slice?_append_right s.name s.descriptor

/-- **Joining the parts loses nothing.** -/
theorem joined_inj {a b : Selector} : a.joined = b.joined ↔ a = b := by
  refine ⟨fun h ↦ ?_, congrArg joined⟩
  have hname : some a.name = some b.name := by rw [← name?_joined, h, name?_joined]
  have hdescriptor : some a.descriptor = some b.descriptor := by
    rw [← descriptor?_joined, h, descriptor?_joined]
  cases a
  cases b
  cases hname
  cases hdescriptor
  rfl

/-- A text that is a signature is the descriptor of the selector it is read to. -/
theorem parse_of_parse {name s : String} {d : Signature} (h : Signature.parse s = .ok d) :
    parse name s = .ok ⟨name, s⟩ := by
  obtain ⟨-, rfl⟩ := Signature.of_parse_eq_ok h
  rw [parse, h]
  rfl

/-- **Selectors identify methods.** Whatever the names are, the selectors of two methods are equal
exactly if names and signatures are, and so are they with their parts joined. Name and descriptor
are read off a selector, joined or not, and a selector that is read from a text has that text as its
descriptor. -/
theorem identifies_method :
    (∀ (name₁ name₂ : String) (d₁ d₂ : Signature), d₁.SemicolonFree → d₂.SemicolonFree →
      (of name₁ d₁ = of name₂ d₂ ↔ name₁ = name₂ ∧ d₁ = d₂) ∧
      ((of name₁ d₁).joined = (of name₂ d₂).joined ↔ name₁ = name₂ ∧ d₁ = d₂)) ∧
    (∀ (name : String) (d : Signature),
      (of name d).name = name ∧ (of name d).descriptor = d.text ∧
      (of name d).joined.name? = some name ∧ (of name d).joined.descriptor? = some d.text) ∧
    ∀ (name s : String), (∃ d, Signature.parse s = .ok d) →
      ∃ k, parse name s = .ok k ∧ k.text = name ++ s ∧ k.name = name ∧ k.descriptor = s ∧
        k.joined.name? = some name ∧ k.joined.descriptor? = some s := by
  refine ⟨fun name₁ name₂ d₁ d₂ h₁ h₂ ↦ ?_, fun name d ↦ ?_, fun name s ⟨d, hd⟩ ↦ ?_⟩
  · rw [joined_inj]
    exact ⟨of_inj h₁ h₂, of_inj h₁ h₂⟩
  · exact ⟨rfl, rfl, name?_joined _, descriptor?_joined _⟩
  · exact ⟨_, parse_of_parse hd, rfl, rfl, rfl, name?_joined _, descriptor?_joined _⟩

/-- A method `f` whose parameter is of the class `I(La` and a method `f(LI` whose parameter is of
the class `a` have one text, and two selectors. -/
theorem identifies_method_of_one_text :
    let f : String × Signature := ("f", ⟨[.object "I(La"], .void⟩)
    let g : String × Signature := ("f(LI", ⟨[.object "a"], .void⟩)
    f.2.SemicolonFree ∧ g.2.SemicolonFree ∧ (of f.1 f.2).text = (of g.1 g.2).text ∧
      (of f.1 f.2).joined ≠ (of g.1 g.2).joined ∧
      Signature.parse "(La;)V" = .ok g.2 ∧
      ∃ k, parse g.1 "(La;)V" = .ok k ∧ k.text = "f(LI(La;)V" := by
  intro f g
  have hf : f.2.SemicolonFree := by
    refine ⟨fun t ht ↦ ?_, trivial⟩
    rw [List.mem_singleton.1 ht]
    exact (by decide : ';' ∉ "I(La".toList)
  have hwf : g.2.WellFormed := by
    refine ⟨fun t ht ↦ ?_, .inl rfl⟩
    rw [List.mem_singleton.1 ht]
    exact (by decide : "a" ≠ "" ∧ ';' ∉ "a".toList)
  have hg : g.2.SemicolonFree := hwf.semicolonFree
  have hparse : Signature.parse "(La;)V" = .ok g.2 := Signature.parse_chars_append hwf []
  obtain ⟨hsame, -, hread⟩ := identifies_method
  obtain ⟨k, hk, htext, -⟩ := hread g.1 _ ⟨_, hparse⟩
  refine ⟨hf, hg, by decide, ?_, hparse, k, hk, htext⟩
  rw [Ne, (hsame _ _ _ _ hf hg).2]
  exact fun h ↦ absurd h.1 (by decide)

end Selector

end HostMethods
