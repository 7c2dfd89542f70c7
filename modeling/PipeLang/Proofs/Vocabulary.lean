import PipeLang.Proofs.Decoding
import PipeLang.Proofs.Derivation
import PipeLang.Proofs.NumberText
import PipeLang.Proofs.Walk

namespace PipeLang.Expression

/-! # What programs can name

An expression that was read from a source is written with tokens that have a text, and so are its
parts. Not all expressions are: no text denotes a negative number or a name with a blank in it.
-/

/-- Each token that the expression is written with has a text. -/
def Spellable (expression : Expression) : Prop :=
  ∀ kind ∈ expression.unparse, ∃ text, kind.WrittenAs text

theorem spellable_of_ofSource {source : String} {program : Expression}
    (parsed : ofSource source = .ok program) : program.Spellable := by
  obtain ⟨scanned, scannedSource, read⟩ := ofSource_eq_ok parsed
  have written {before text : List Char} {tokens : List Token} (cut : Cut before text tokens) :
      ∀ token ∈ tokens, ∃ text, token.kind.WrittenAs text := by
    induction cut with
    | last => simp
    | token blank written place others ih => exact List.forall_mem_cons.mpr ⟨⟨_, written⟩, ih⟩
  intro kind member
  rw [(parse_lossless _ _ _ read).1] at member
  obtain ⟨token, inTokens, rfl⟩ := List.mem_map.mp member
  exact written (scan_lossless source scanned scannedSource).1 token inTokens

theorem subset_separated {phrases : List (List Mark)} {phrase : List Mark}
    (listed : phrase ∈ phrases) : phrase ⊆ Mark.separated phrases := by
  induction phrases with
  | nil => cases listed
  | cons first others ih =>
      cases others with
      | nil => simp_all
      | cons second others =>
          intro mark member
          rw [Mark.separated_cons_cons, List.mem_append, List.mem_cons]
          rcases List.mem_cons.mp listed with rfl | later
          · exact .inl member
          · exact .inr (.inr (ih later member))

theorem subset_elementKinds {elements : List Expression} {element : Expression}
    (inside : element ∈ elements) : element.unparse ⊆ elementKinds elements :=
  List.map_subset _ (subset_separated (mem_spellings.mpr ⟨element, inside, rfl⟩))

theorem identifier_mem_parameterKinds {names : List String} {name : String}
    (listed : name ∈ names) : .identifier name ∈ parameterKinds names := by
  have phrase : [Mark.plain (.identifier name)] ⊆ parameterSpelling names :=
    subset_separated (List.mem_map.mpr ⟨name, listed, rfl⟩)
  exact List.mem_map.mpr ⟨_, phrase List.mem_cons_self, rfl⟩

variable {expression inner : Expression} {location : Location} {names : List String} {name : String}

theorem Spellable.child (spellable : expression.Spellable) (inside : inner ∈ expression.children) :
    inner.Spellable := by
  intro kind member
  apply spellable
  cases expression with
  | number | string | boolean | reference => cases inside
  | tuple location elements =>
      rw [unparse_tuple]
      exact List.mem_cons_of_mem _ (List.mem_append_left _ (subset_elementKinds inside member))
  | lambda location parameters body =>
      obtain rfl := List.mem_singleton.mp inside
      rw [unparse_lambda]
      simp [member]
  | binary location operator left right =>
      rw [unparse_binary]
      simp only [children, List.mem_cons, List.not_mem_nil, or_false] at inside
      rcases inside with rfl | rfl <;> simp [member]

theorem identifierText_of_writtenAs {text : List Char}
    (written : (Token.Kind.identifier name).WrittenAs text) :
    Token.IdentifierText name.toList := by
  cases written with
  | fixed known => cases known
  | identifier valid => rwa [String.toList_ofList]

theorem Spellable.reference (spellable : (Expression.reference location name).Spellable) :
    Token.IdentifierText name.toList := by
  obtain ⟨text, written⟩ := spellable (.identifier name) List.mem_cons_self
  exact identifierText_of_writtenAs written

theorem Spellable.parameter {body : Expression}
    (spellable : (Expression.lambda location names body).Spellable) (member : name ∈ names) :
    Token.IdentifierText name.toList := by
  have listed := identifier_mem_parameterKinds member
  obtain ⟨text, written⟩ := spellable (.identifier name) (by rw [unparse_lambda]; simp [listed])
  exact identifierText_of_writtenAs written

theorem Spellable.number {value : Float}
    (spellable : (Expression.number location value).Spellable) : Number.NotNegative value := by
  obtain ⟨text, written⟩ := spellable (.number value) List.mem_cons_self
  cases written with
  | fixed known => cases known
  | number numeral => exact Number.notNegative_decimal _

/-- Names in a row can be told from each other if what is between them starts like a separator. -/
theorem names_unique {separator : String} {mark : Char} {behind : List Char}
    {others : List String} (marked : separator.toList = mark :: behind)
    (separates : mark ∈ Token.separators) (each : ∀ name ∈ names, Token.IdentifierText name.toList)
    (eachToo : ∀ name ∈ others, Token.IdentifierText name.toList)
    (same : separator.intercalate names = separator.intercalate others) : names = others := by
  have pieces {names : List String} (each : ∀ name ∈ names, Token.IdentifierText name.toList) :
      ∀ piece ∈ names.map String.toList, piece ≠ [] ∧ mark ∉ piece := by
    intro piece member
    obtain ⟨name, listed, rfl⟩ := List.mem_map.mp member
    have valid := each name listed
    exact ⟨valid.nonempty, fun inside => valid.noSeparator mark inside separates⟩
  have characters := congrArg String.toList same
  rw [String.toList_intercalate, String.toList_intercalate, marked] at characters
  have texts := Text.intercalate_injective (pieces each) (pieces eachToo) characters
  exact (List.map_injective_iff.mpr fun _ _ => String.toList_inj.mp) texts

/-- No name in a row contains a separator. -/
theorem separator_not_mem_row {between : String} {mark : Char}
    (each : ∀ name ∈ names, Token.IdentifierText name.toList) (separates : mark ∈ Token.separators)
    (apart : mark ∉ between.toList) : mark ∉ (between.intercalate names).toList := by
  rw [String.toList_intercalate]
  intro member
  rcases Text.mem_intercalate member with inside | ⟨piece, listed, inside⟩
  · exact apart inside
  · obtain ⟨name, isName, rfl⟩ := List.mem_map.mp listed
    exact (each name isName).noSeparator mark inside separates

end PipeLang.Expression
