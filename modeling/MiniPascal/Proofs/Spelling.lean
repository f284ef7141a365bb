import MiniPascal.Proofs.Syntax

/-! # What the tokens of a program determine

The tokens that a phrase is spelled by contain the names that it uses as variables, in order, and no
period. The tokens of a program therefore determine where the program ends, what it is called, what it
declares and which variables it uses. Every variable and every literal of a tree is the text of such a
token, and a text literal stands only where an operand may be one.
-/

namespace MiniPascal

/-- The kind of the first of some tokens. -/
def firstKind (tokens : List Token) : TokenKind := (tokens.head?.map (·.kind)).getD .endOfInput

@[simp] theorem firstKind_cons (token : Token) (tokens : List Token) :
    firstKind (token :: tokens) = token.kind := rfl

namespace Syntax

variable {t : Token} {input middle rest rest' : List Token} {names names' : List Text}

/-- The identifiers among some tokens. -/
def identifiersOf (tokens : List Token) : List Text :=
  (tokens.filter (·.kind = .identifier)).map (·.text)

theorem identifiersOf_append (first second : List Token) :
    identifiersOf (first ++ second) = identifiersOf first ++ identifiersOf second := by
  simp [identifiersOf]

/-- The names are those at the front of `input`, before `rest`, and no period is among them. -/
def Reads (names : List Text) (input rest : List Token) : Prop :=
  ∃ read, input = read ++ rest ∧ identifiersOf read = names ∧ ∀ t ∈ read, t.kind ≠ .period

theorem Reads.nil : Reads [] rest rest := ⟨[], rfl, rfl, fun _ member => nomatch member⟩

theorem Reads.trans (first : Reads names input middle) (second : Reads names' middle rest) :
    Reads (names ++ names') input rest := by
  obtain ⟨read, rfl, rfl, plain⟩ := first
  obtain ⟨read', rfl, rfl, plain'⟩ := second
  refine ⟨read ++ read', (List.append_assoc ..).symm, identifiersOf_append .., ?_⟩
  exact List.forall_mem_append.mpr ⟨plain, plain'⟩

/-- A word, a sign or a literal. -/
theorem Reads.word {kind : TokenKind} (is : t.kind = kind)
    (other : kind ≠ .identifier ∧ kind ≠ .period) (reads : Reads names input rest) :
    Reads names (t :: input) rest := by
  have first : Reads [] (t :: input) input := by
    refine ⟨[t], rfl, by simp [identifiersOf, is, other.1], ?_⟩
    simp [is, other.2]
  exact first.trans reads

theorem Reads.name (is : t.kind = .identifier) (reads : Reads names input rest) :
    Reads (t.text :: names) (t :: input) rest := by
  have first : Reads [t.text] (t :: input) input := by
    refine ⟨[t], rfl, by simp [identifiersOf, is], ?_⟩
    simp [is]
  exact first.trans reads

theorem Operator.kind_plain (op : Operator) : op.kind ≠ .identifier ∧ op.kind ≠ .period := by
  cases op <;> exact ⟨nofun, nofun⟩

theorem Comparison.kind_plain (comparison : Comparison) :
    comparison.kind ≠ .identifier ∧ comparison.kind ≠ .period := by
  cases comparison <;> exact ⟨nofun, nofun⟩

theorem Expr.Spelled.reads {form : ExprForm} {e : Expr} (spelled : e.Spelled form input rest) :
    Reads e.names input rest := by
  induction spelled with
  | number is =>
    obtain is | is := is
    · exact .word is ⟨nofun, nofun⟩ .nil
    · exact .word is ⟨nofun, nofun⟩ .nil
  | var is => exact .name is .nil
  | parenthesized opens _ closes ih =>
    have last := ih.trans (.word closes ⟨nofun, nofun⟩ .nil)
    rw [List.append_nil] at last
    exact .word opens ⟨nofun, nofun⟩ last
  | factor _ ih | term _ ih | simple _ ih => exact ih
  | @product _ _ _ _ _ _ op _ is _ _ ih ih' | @sum _ _ _ _ _ _ op _ is _ _ ih ih' =>
    exact ih.trans (.word is op.kind_plain ih')
  | plus is _ ih | minus is _ ih => exact .word is ⟨nofun, nofun⟩ ih
  | text is => exact .word is ⟨nofun, nofun⟩ .nil

theorem Relation.Spelled.reads {r : Relation} (spelled : r.Spelled input rest) :
    Reads r.names input rest := by
  obtain @⟨_, _, _, _, _, _, comparison, left, is, right⟩ := spelled
  exact left.reads.trans (.word is comparison.kind_plain right.reads)

/-- A word after a phrase. -/
theorem Reads.before {kind : TokenKind} (reads : Reads names input (t :: rest)) (is : t.kind = kind)
    (other : kind ≠ .identifier ∧ kind ≠ .period) : Reads names input rest := by
  have last := reads.trans (.word is other .nil)
  rwa [List.append_nil] at last

theorem Stmt.Spelled.reads {nearest : Prop} {form : StmtForm} {d : Bool} {s : Stmt}
    (spelled : s.Spelled nearest form d input rest) : Reads s.names input rest := by
  induction spelled with
  | empty => exact .nil
  | assignment is assigns source => exact .name is (.word assigns ⟨nofun, nofun⟩ source.reads)
  | block begins _ ends ih => exact .word begins ⟨nofun, nofun⟩ (ih.before ends ⟨nofun, nofun⟩)
  | ifThen is test isThen _ ih =>
    exact .word is ⟨nofun, nofun⟩ ((test.reads.before isThen ⟨nofun, nofun⟩).trans ih)
  | ifElse is test isThen _ _ isElse _ ih ih' =>
    exact .word is ⟨nofun, nofun⟩ ((test.reads.before isThen ⟨nofun, nofun⟩).trans
      ((ih.before isElse ⟨nofun, nofun⟩).trans ih'))
  | whileLoop is test isDo _ ih =>
    exact .word is ⟨nofun, nofun⟩ ((test.reads.before isDo ⟨nofun, nofun⟩).trans ih)
  | repeatLoop is _ isUntil test ih =>
    exact .word is ⟨nofun, nofun⟩ ((ih.before isUntil ⟨nofun, nofun⟩).trans test.reads)
  | @forLoop _ _ _ _ _ _ _ _ _ _ _ down _ _ is counter assigns starts direction upTo isDo _ ih =>
    have plain : (if down then TokenKind.kwDownto else .kwTo) ≠ .identifier ∧
        (if down then TokenKind.kwDownto else .kwTo) ≠ .period := by
      cases down <;> exact ⟨nofun, nofun⟩
    exact .word is ⟨nofun, nofun⟩ (.name counter (.word assigns ⟨nofun, nofun⟩
      ((starts.reads.before direction plain).trans ((upTo.reads.before isDo ⟨nofun, nofun⟩).trans ih))))
  | writeln is opens value closes =>
    exact .word is ⟨nofun, nofun⟩ (.word opens ⟨nofun, nofun⟩ (value.reads.before closes ⟨nofun, nofun⟩))
  | readln is opens target closes =>
    exact .word is ⟨nofun, nofun⟩ (.word opens ⟨nofun, nofun⟩
      (.name target (.word closes ⟨nofun, nofun⟩ .nil)))
  | single _ ih => exact ih
  | sequence _ is _ ih ih' => exact (ih.before is ⟨nofun, nofun⟩).trans ih'

/-- What stands before the first token of a kind is determined. -/
theorem append_cons_inj {kind : TokenKind} {first second : List Token} {t t' : Token}
    (same : first ++ t :: rest = second ++ t' :: rest') (is : t.kind = kind) (is' : t'.kind = kind)
    (other : ∀ u ∈ first, u.kind ≠ kind) (other' : ∀ u ∈ second, u.kind ≠ kind) :
    first = second ∧ t = t' ∧ rest = rest' := by
  induction first generalizing second with
  | nil =>
    cases second with
    | nil => simpa using same
    | cons u second =>
      obtain ⟨rfl, _⟩ := List.cons.inj same
      exact absurd is (other' t List.mem_cons_self)
  | cons u first ih =>
    cases second with
    | nil =>
      obtain ⟨rfl, _⟩ := List.cons.inj same
      exact absurd is' (other u List.mem_cons_self)
    | cons v second =>
      obtain ⟨rfl, tail⟩ := List.cons.inj same
      obtain ⟨rfl, rest⟩ := ih tail (fun w member => other w (List.mem_cons_of_mem _ member))
        (fun w member => other' w (List.mem_cons_of_mem _ member))
      exact ⟨rfl, rest⟩

/-- The statements of a program end at the first period. -/
theorem Reads.unique {ends ends' period period' : Token}
    (first : Reads names input (ends :: period :: rest))
    (second : Reads names' input (ends' :: period' :: rest'))
    (isEnd : ends.kind = .kwEnd) (isEnd' : ends'.kind = .kwEnd)
    (isPeriod : period.kind = .period) (isPeriod' : period'.kind = .period) :
    names = names' ∧ rest = rest' := by
  obtain ⟨read, rfl, rfl, plain⟩ := first
  obtain ⟨read', same, rfl, plain'⟩ := second
  have same : (read ++ [ends]) ++ period :: rest = (read' ++ [ends']) ++ period' :: rest' := by
    simpa using same
  have closing : ∀ {t : Token}, t.kind = .kwEnd → ∀ u ∈ [t], u.kind ≠ .period := by
    intro t is u member
    rw [List.mem_singleton.mp member, is]
    nofun
  obtain ⟨same, _, rest⟩ := append_cons_inj same isPeriod isPeriod'
    (List.forall_mem_append.mpr ⟨plain, closing isEnd⟩)
    (List.forall_mem_append.mpr ⟨plain', closing isEnd'⟩)
  exact ⟨congrArg identifiersOf (List.append_inj_left' same rfl), rest⟩

/-! ## Where names and literals come from -/

/-- Some token of a kind has the text. -/
def Among (tokens : List Token) (kind : TokenKind) (text : Text) : Prop :=
  ∃ t ∈ tokens, t.kind = kind ∧ t.text = text

theorem Among.mono {tokens more : List Token} {kind : TokenKind} {text : Text}
    (among : Among tokens kind text) (sub : tokens ⊆ more) : Among more kind text := by
  obtain ⟨t, member, is, same⟩ := among
  exact ⟨t, sub member, is, same⟩

theorem Among.head {tokens : List Token} {kind : TokenKind} (is : t.kind = kind) :
    Among (t :: tokens) kind t.text :=
  ⟨t, List.mem_cons_self, is, rfl⟩

/-- The variables of an expression are identifiers among the tokens, and its literals are numbers. -/
def Expr.DrawnFrom (tokens : List Token) : Expr → Prop
  | literal name => Among tokens .integerLiteral name ∨ Among tokens .realLiteral name
  | var name => Among tokens .identifier name
  | negated e => e.DrawnFrom tokens
  | operation _ left right => left.DrawnFrom tokens ∧ right.DrawnFrom tokens

/-- An expression that may be a text literal too. -/
def Expr.OperandFrom (tokens : List Token) (e : Expr) : Prop :=
  e.DrawnFrom tokens ∨ ∃ name, e = .literal name ∧ Among tokens .textLiteral name

def Relation.DrawnFrom (tokens : List Token) (r : Relation) : Prop :=
  r.left.DrawnFrom tokens ∧ r.right.DrawnFrom tokens

/-- The variables and literals of a statement are among the tokens. -/
def Stmt.DrawnFrom (tokens : List Token) : Stmt → Prop
  | empty => True
  | sequence first second => first.DrawnFrom tokens ∧ second.DrawnFrom tokens
  | assignment target source => Among tokens .identifier target ∧ source.OperandFrom tokens
  | ifThen test body => test.DrawnFrom tokens ∧ body.DrawnFrom tokens
  | ifElse test body other =>
    test.DrawnFrom tokens ∧ body.DrawnFrom tokens ∧ other.DrawnFrom tokens
  | whileLoop test body => test.DrawnFrom tokens ∧ body.DrawnFrom tokens
  | repeatLoop body test => body.DrawnFrom tokens ∧ test.DrawnFrom tokens
  | forLoop counter start limit _ body =>
    Among tokens .identifier counter ∧ start.DrawnFrom tokens ∧ limit.DrawnFrom tokens ∧
      body.DrawnFrom tokens
  | writeln e => e.OperandFrom tokens
  | readln target => Among tokens .identifier target

section Drawn

variable {tokens more : List Token}

theorem Expr.DrawnFrom.mono {e : Expr} (drawn : e.DrawnFrom tokens) (sub : tokens ⊆ more) :
    e.DrawnFrom more := by
  induction e with
  | literal => exact drawn.imp (·.mono sub) (·.mono sub)
  | var => exact Among.mono drawn sub
  | negated _ ih => exact ih drawn
  | operation _ _ _ ih ih' => exact drawn.imp ih ih'

theorem Expr.OperandFrom.mono {e : Expr} (drawn : e.OperandFrom tokens) (sub : tokens ⊆ more) :
    e.OperandFrom more :=
  drawn.imp (·.mono sub) fun ⟨name, same, among⟩ => ⟨name, same, among.mono sub⟩

theorem Relation.DrawnFrom.mono {r : Relation} (drawn : r.DrawnFrom tokens) (sub : tokens ⊆ more) :
    r.DrawnFrom more :=
  drawn.imp (·.mono sub) (·.mono sub)

theorem Stmt.DrawnFrom.mono {s : Stmt} (drawn : s.DrawnFrom tokens) (sub : tokens ⊆ more) :
    s.DrawnFrom more := by
  induction s with
  | empty => trivial
  | sequence _ _ ih ih' => exact drawn.imp ih ih'
  | assignment => exact drawn.imp (·.mono sub) (·.mono sub)
  | ifThen _ _ ih | whileLoop _ _ ih => exact drawn.imp (·.mono sub) ih
  | ifElse _ _ _ ih ih' => exact ⟨drawn.1.mono sub, ih drawn.2.1, ih' drawn.2.2⟩
  | repeatLoop _ _ ih => exact drawn.imp ih (·.mono sub)
  | forLoop _ _ _ _ _ ih =>
    exact ⟨drawn.1.mono sub, drawn.2.1.mono sub, drawn.2.2.1.mono sub, ih drawn.2.2.2⟩
  | writeln => exact Expr.OperandFrom.mono drawn sub
  | readln => exact Among.mono drawn sub

end Drawn

theorem Reads.rest_subset (reads : Reads names input rest) : rest ⊆ input := by
  obtain ⟨read, rfl, _⟩ := reads
  exact List.subset_append_right read rest

/-- The tokens after a word that follows a phrase are among those of the phrase. -/
theorem Reads.after_subset (reads : Reads names input (t :: rest)) : rest ⊆ input :=
  fun _ member => reads.rest_subset (List.mem_cons_of_mem t member)

theorem Expr.Spelled.drawn {form : ExprForm} {e : Expr} (spelled : e.Spelled form input rest)
    (plain : form ≠ .operand) : e.DrawnFrom input := by
  induction spelled with
  | number is => exact is.imp .head .head
  | var is => exact .head is
  | parenthesized _ _ _ ih | plus _ _ ih =>
    exact (ih nofun).mono (List.subset_cons_self _ _)
  | minus _ _ ih => exact (ih nofun).mono (List.subset_cons_self _ _)
  | factor _ ih | term _ ih => exact ih nofun
  | product left _ _ _ ih ih' | sum left _ _ _ ih ih' =>
    exact ⟨ih nofun, (ih' nofun).mono left.reads.after_subset⟩
  | simple | text => exact absurd rfl plain

theorem Expr.Spelled.operand {e : Expr} (spelled : e.Spelled .operand input rest) :
    e.OperandFrom input := by
  cases spelled with
  | simple inner => exact .inl (inner.drawn nofun)
  | text is => exact .inr ⟨_, rfl, .head is⟩

theorem Relation.Spelled.drawn {r : Relation} (spelled : r.Spelled input rest) :
    r.DrawnFrom input := by
  obtain ⟨left, _, right⟩ := spelled
  exact ⟨left.drawn nofun, (right.drawn nofun).mono left.reads.after_subset⟩

theorem Stmt.Spelled.drawn {nearest : Prop} {form : StmtForm} {d : Bool} {s : Stmt}
    (spelled : s.Spelled nearest form d input rest) : s.DrawnFrom input := by
  have tail {first : Token} {tokens : List Token} : tokens ⊆ first :: tokens :=
    List.subset_cons_self _ _
  induction spelled with
  | empty => trivial
  | assignment is _ source =>
    exact ⟨.head is, (source.operand.mono tail).mono tail⟩
  | block _ _ _ ih => exact ih.mono tail
  | ifThen _ test _ _ ih | whileLoop _ test _ _ ih =>
    exact ⟨test.drawn.mono tail, (ih.mono test.reads.after_subset).mono tail⟩
  | ifElse _ test _ body _ _ _ ih ih' =>
    refine ⟨test.drawn.mono tail, (ih.mono test.reads.after_subset).mono tail, ?_⟩
    exact ((ih'.mono body.reads.after_subset).mono test.reads.after_subset).mono tail
  | repeatLoop _ body _ test ih =>
    exact ⟨ih.mono tail, (test.drawn.mono body.reads.after_subset).mono tail⟩
  | forLoop _ counter _ starts _ upTo _ _ ih =>
    have skip {tokens : List Token} {first second third : Token} :
        tokens ⊆ first :: second :: third :: tokens :=
      fun _ member => by simp [member]
    refine ⟨(Among.head counter).mono tail, (starts.drawn nofun).mono skip, ?_, ?_⟩
    · exact ((upTo.drawn nofun).mono starts.reads.after_subset).mono skip
    · exact ((ih.mono upTo.reads.after_subset).mono starts.reads.after_subset).mono skip
  | writeln _ _ value => exact (value.operand.mono tail).mono tail
  | readln _ _ target => exact ((Among.head target).mono tail).mono tail
  | single _ ih => exact ih
  | sequence before _ _ ih ih' => exact ⟨ih, ih'.mono before.reads.after_subset⟩

/-! ## Declarations -/

theorem NamesSpelled.shorter (spelled : NamesSpelled names input rest) :
    rest.length < input.length := by
  induction spelled with
  | single => simp
  | more _ _ _ ih =>
    simp only [List.length_cons] at ih
    omega

theorem NamesSpelled.firstKind (spelled : NamesSpelled names input rest) :
    firstKind input = .identifier := by
  induction spelled with
  | single is => simp [is]
  | more _ _ _ ih => exact ih

/-- Names are the identifiers before the first token that is no identifier and no comma. -/
theorem NamesSpelled.read (spelled : NamesSpelled names input rest) :
    ∃ read, input = read ++ rest ∧ identifiersOf read = names ∧ ∀ t ∈ read, t.kind ≠ .colon := by
  induction spelled with
  | @single t rest is => exact ⟨[t], rfl, by simp [identifiersOf, is], by simp [is]⟩
  | @more comma t _ _ rest _ isComma is ih =>
    obtain ⟨read, rfl, rfl, plain⟩ := ih
    refine ⟨read ++ [comma, t], by simp, by simp [identifiersOf, isComma, is], ?_⟩
    refine List.forall_mem_append.mpr ⟨plain, ?_⟩
    simp [isComma, is]

theorem NamesSpelled.among (spelled : NamesSpelled names input rest) :
    ∀ name ∈ names, Among input .identifier name := by
  obtain ⟨read, rfl, rfl, _⟩ := spelled.read
  intro name member
  obtain ⟨t, filtered, same⟩ := List.mem_map.mp member
  obtain ⟨member, is⟩ := List.mem_filter.mp filtered
  exact ⟨t, List.mem_append_left _ member, of_decide_eq_true is, same⟩

theorem NamesSpelled.after_subset {colon : Token}
    (spelled : NamesSpelled names input (colon :: rest)) : rest ⊆ input := by
  obtain ⟨read, rfl, _⟩ := spelled.read
  intro t member
  exact List.mem_append_right read (List.mem_cons_of_mem colon member)

theorem NamesSpelled.unique {colon colon' : Token} (first : NamesSpelled names input (colon :: rest))
    (second : NamesSpelled names' input (colon' :: rest')) (isColon : colon.kind = .colon)
    (isColon' : colon'.kind = .colon) : names = names' ∧ rest = rest' := by
  obtain ⟨read, rfl, rfl, plain⟩ := first.read
  obtain ⟨read', same, rfl, plain'⟩ := second.read
  obtain ⟨rfl, _, rest⟩ := append_cons_inj same isColon isColon' plain plain'
  exact ⟨rfl, rest⟩

theorem TypeWord.unique {word : TokenKind} {kind kind' : Kind} (first : TypeWord word kind)
    (second : TypeWord word kind') : kind = kind' := by
  cases first <;> cases second <;> rfl

variable {declared declared' : List (Text × Kind)}

theorem GroupsSpelled.shorter (spelled : GroupsSpelled declared input rest) :
    rest.length < input.length := by
  induction spelled with
  | single group =>
    have := group.shorter
    simp only [List.length_cons] at this
    omega
  | more group _ _ _ _ ih =>
    have := group.shorter
    simp only [List.length_cons] at this
    omega

theorem GroupsSpelled.firstKind (spelled : GroupsSpelled declared input rest) :
    firstKind input = .identifier := by
  cases spelled with
  | single group | more group => exact group.firstKind

theorem GroupsSpelled.unique (first : GroupsSpelled declared input rest)
    (second : GroupsSpelled declared' input rest')
    (ends : MiniPascal.firstKind rest ≠ .identifier)
    (ends' : MiniPascal.firstKind rest' ≠ .identifier) : declared = declared' ∧ rest = rest' := by
  induction first generalizing declared' with
  | single group isColon is _ =>
    cases second with
    | single group' isColon' is' _ =>
      obtain ⟨rfl, same⟩ := group.unique group' isColon isColon'
      cases same
      exact ⟨by rw [is.unique is'], rfl⟩
    | more group' isColon' is' _ others' =>
      obtain ⟨rfl, same⟩ := group.unique group' isColon isColon'
      cases same
      exact absurd others'.firstKind ends
  | more group isColon is _ others ih =>
    cases second with
    | single group' isColon' is' _ =>
      obtain ⟨rfl, same⟩ := group.unique group' isColon isColon'
      cases same
      exact absurd others.firstKind ends'
    | more group' isColon' is' _ others' =>
      obtain ⟨rfl, same⟩ := group.unique group' isColon isColon'
      cases same
      obtain ⟨rfl, same⟩ := ih others' ends
      exact ⟨by rw [is.unique is'], same⟩

theorem GroupsSpelled.among (spelled : GroupsSpelled declared input rest) :
    rest ⊆ input ∧ ∀ entry ∈ declared, Among input .identifier entry.1 := by
  have skip {tokens : List Token} {first second : Token} : tokens ⊆ first :: second :: tokens :=
    fun _ member => by simp [member]
  have names {input : List Token} {names : List Text} {kind : Kind}
      (among : ∀ name ∈ names, Among input .identifier name) :
      ∀ entry ∈ names.map (·, kind), Among input .identifier entry.1 := by
    intro entry member
    obtain ⟨name, listed, rfl⟩ := List.mem_map.mp member
    exact among name listed
  induction spelled with
  | single group => exact ⟨List.Subset.trans skip group.after_subset, names group.among⟩
  | more group _ _ _ _ ih =>
    have after := List.Subset.trans skip group.after_subset
    refine ⟨List.Subset.trans ih.1 after, List.forall_mem_append.mpr ⟨names group.among, ?_⟩⟩
    exact fun entry member => (ih.2 entry member).mono after

theorem SectionsSpelled.among (spelled : SectionsSpelled declared input rest) :
    rest ⊆ input ∧ ∀ entry ∈ declared, Among input .identifier entry.1 := by
  induction spelled with
  | none => exact ⟨List.Subset.refl _, fun _ member => absurd member List.not_mem_nil⟩
  | @more word _ _ tokens _ _ _ groups _ ih =>
    have tail : tokens ⊆ word :: tokens := List.subset_cons_self _ _
    have after := List.Subset.trans groups.among.1 tail
    refine ⟨List.Subset.trans ih.1 after, List.forall_mem_append.mpr ⟨?_, ?_⟩⟩
    · exact fun entry member => (groups.among.2 entry member).mono tail
    · exact fun entry member => (ih.2 entry member).mono after

theorem SectionsSpelled.firstKind {begins : Token} (isBegin : begins.kind = .kwBegin)
    (spelled : SectionsSpelled declared input (begins :: rest)) :
    MiniPascal.firstKind input ≠ .identifier := by
  cases spelled with
  | none => simp [isBegin]
  | more is => simp [is]

theorem SectionsSpelled.unique {begins begins' : Token}
    (first : SectionsSpelled declared input (begins :: rest))
    (second : SectionsSpelled declared' input (begins' :: rest')) (isBegin : begins.kind = .kwBegin)
    (isBegin' : begins'.kind = .kwBegin) : declared = declared' ∧ rest = rest' := by
  generalize last : begins :: rest = after at first
  induction first generalizing declared' with
  | none =>
    subst last
    cases second with
    | none => exact ⟨rfl, rfl⟩
    | more is => simp [isBegin] at is
  | more is groups others ih =>
    subst last
    cases second with
    | none => simp [isBegin'] at is
    | more _ groups' others' =>
      obtain ⟨rfl, rfl⟩ := groups.unique groups' (others.firstKind isBegin) (others'.firstKind isBegin')
      obtain ⟨rfl, same⟩ := ih others' rfl
      exact ⟨rfl, same⟩

/-! ## Programs -/

/-- Name, declarations, variables and literals of a program are among the tokens. -/
structure Program.DrawnFrom (tokens : List Token) (p : Program) : Prop where
  name : Among tokens .identifier p.name
  declared : ∀ entry ∈ p.declarations, Among tokens .identifier entry.1
  body : p.body.DrawnFrom tokens

theorem Program.Spelled.drawn {nearest : Prop} {p : Program} (spelled : p.Spelled nearest input rest) :
    p.DrawnFrom input := by
  obtain ⟨_, is, _, sections, _, statements, _, _⟩ := spelled
  have skip {tokens : List Token} {first second third : Token} :
      tokens ⊆ first :: second :: third :: tokens :=
    fun _ member => by simp [member]
  obtain ⟨after, declared⟩ := sections.among
  refine ⟨(Among.head is).mono (List.subset_cons_self _ _), ?_, ?_⟩
  · exact fun entry member => (declared entry member).mono skip
  · exact (statements.drawn.mono (fun _ member => after (List.mem_cons_of_mem _ member))).mono skip

/-- All that the tokens of a program determine but its tree. -/
theorem Program.Spelled.unique {nearest nearest' : Prop} {p q : Program}
    (first : p.Spelled nearest input rest) (second : q.Spelled nearest' input rest') :
    p.name = q.name ∧ p.declarations = q.declarations ∧ p.body.names = q.body.names ∧ rest = rest' := by
  obtain ⟨_, _, _, sections, isBegin, statements, isEnd, isPeriod⟩ := first
  obtain ⟨_, _, _, sections', isBegin', statements', isEnd', isPeriod'⟩ := second
  obtain ⟨declarations, rfl⟩ := sections.unique sections' isBegin isBegin'
  obtain ⟨names, rest⟩ := statements.reads.unique statements'.reads isEnd isEnd' isPeriod isPeriod'
  exact ⟨rfl, declarations, names, rest⟩

end Syntax

end MiniPascal
