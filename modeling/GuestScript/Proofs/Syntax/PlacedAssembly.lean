import GuestScript.Proofs.Syntax.Building
import GuestScript.Proofs.Syntax.PlacedPieces
import GuestScript.Proofs.Syntax.Spellings
import GuestScript.Proofs.Syntax.StringLiterals

/-!
# Where the parts of a tree stand

Assembling the pieces of a rule keeps their regions, or puts one region around them (`Frames`). Nothing
that matters is dropped on the way: what is left out, such as the name inside a type, holds no use of
what not every version has. For most rules this can be read off what they make (`makings_assemble`). The
fields and functions of a type, which a tree has apart, are put in order again by where they start; the
parts of a file are sorted by their kinds; a place leaves out the receiver.
-/

namespace GuestScript.Syntax

open Grammar (IsBoundary Node Rule StandsAt)

/-- What not every version has, if a problem is its use. -/
def Problem.use? : Problem → Option (Feature × Span)
  | .usesFeature feature span => some (feature, span)
  | _ => none

/-- The uses among problems. -/
abbrev usesAmong (problems : List Problem) : List (Feature × Span) :=
  problems.filterMap Problem.use?

theorem usesAmong_append (first second : List Problem) :
    usesAmong (first ++ second) = usesAmong first ++ usesAmong second :=
  List.filterMap_append

namespace Assembly

/-! ## Regions that are kept -/

/-- Some of a list of regions are kept, and no use of what not every version has is lost. -/
structure Keeps (whole kept : List Region) : Prop where
  sublist : kept.Sublist whole
  uses : usesOf kept = usesOf whole

/-- What the region of a rule is. -/
def kindOf : Rule → Region.Kind
  | .lambda => .feature .lambda
  | _ => .other

/-- What a rule makes of the regions of its parts: it leaves them as they are, or puts its own region
around them. -/
inductive Frames (rule : Rule) (span : Span) (whole : List Region) : List Region → Prop
  | bare {kept : List Region} : problemsOf rule span = [] → Keeps whole kept → Frames rule span whole kept
  | around {kept : List Region} : rule.mayBeEmpty = false → Keeps whole kept →
      Frames rule span whole [.mk (kindOf rule) span kept]

/-- What a rule makes of parts with these regions: a piece that keeps no other span than that of the
rule, with the regions in it. -/
structure Makings (rule : Rule) (span : Span) (whole : List Region) (piece : Piece) : Prop where
  own : ∀ own, piece.span? = some own → own = span
  frames : Frames rule span whole piece.regions

section Frames

variable {rule : Rule} {span : Span} {whole kept : List Region} {piece : Piece}

theorem Keeps.refl (whole : List Region) : Keeps whole whole :=
  ⟨.refl whole, rfl⟩

theorem Frames.uses (frames : Frames rule span whole kept) :
    usesOf kept = usesAmong (problemsOf rule span) ++ usesOf whole := by
  cases frames with
  | bare none keeps => rw [none, keeps.uses]; rfl
  | @around inside _ keeps =>
      rw [← keeps.uses]
      cases rule <;> exact List.append_nil _

/-- A rule puts its piece where the rule stands. -/
theorem Makings.isAt {text : List Char} (makes : Makings rule span whole piece)
    (start : IsBoundary text span.start) (stop : IsBoundary text span.stop)
    (room : rule.mayBeEmpty = false → span.start < span.stop)
    (placed : ArePlaced text span.start span.stop whole) : piece.IsAt text span := by
  refine ⟨start, stop, makes.own, ?_⟩
  obtain ⟨own, frames⟩ := makes
  generalize piece.regions = regions at frames
  cases frames with
  | bare _ keeps => exact placed.sublist keeps.sublist
  | around some keeps =>
      refine arePlaced_singleton.mpr ⟨?_, Nat.le_refl _, Nat.le_refl _⟩
      exact (placed.sublist keeps.sublist).around start stop (room some) (by cases rule <;> exact nofun)

theorem makings_bare (own : ∀ own, piece.span? = some own → own = span)
    (none : problemsOf rule span = []) (same : piece.regions = whole) :
    Makings rule span whole piece :=
  ⟨own, same ▸ .bare none (.refl _)⟩

theorem makings_around (own : ∀ own, piece.span? = some own → own = span)
    (some : rule.mayBeEmpty = false) (same : piece.regions = [.mk (kindOf rule) span whole]) :
    Makings rule span whole piece :=
  ⟨own, same ▸ .around some (.refl _)⟩

end Frames

/-! ## Parts of one kind -/

section Conversions

variable {Target : Type} {convert : Piece → Option Target}

/-- Pieces that are converted one by one have the regions of what they are converted to. -/
theorem regions_of_mapM {region : Target → Region}
    (keeps : ∀ piece target, convert piece = some target → piece.regions = [region target])
    {pieces : List Piece} {targets : List Target} (converted : pieces.mapM convert = some targets) :
    targets.map region = regionsOfPieces pieces :=
  List.map_eq_flatMap.trans
    (flatMap_of_mapM (fun piece target found ↦ (keeps piece target found).symm) converted)

theorem asName_regions (piece : Piece) (name : Identifier) (converted : asName piece = some name) :
    piece.regions = [name.region] := by
  cases piece with
  | name name' => exact Option.some.inj converted ▸ rfl
  | _ => exact absurd converted nofun

theorem asType_regions (piece : Piece) (type : TypeExpression) (converted : asType piece = some type) :
    piece.regions = [type.region] := by
  cases piece with
  | type type' => exact Option.some.inj converted ▸ rfl
  | _ => exact absurd converted nofun

theorem asExpression_regions (piece : Piece) (value : Expression)
    (converted : asExpression piece = some value) : piece.regions = [value.region] := by
  cases piece with
  | expression value' => exact Option.some.inj converted ▸ rfl
  | _ => exact absurd converted nofun

theorem asStatement_regions (piece : Piece) (statement : Statement)
    (converted : asStatement piece = some statement) : piece.regions = [statement.region] := by
  cases piece with
  | statement statement' => exact Option.some.inj converted ▸ rfl
  | _ => exact absurd converted nofun

theorem asDeclaration_regions (piece : Piece) (declaration : TypeDeclaration)
    (converted : asDeclaration piece = some declaration) :
    piece.regions = [declaration.region] := by
  cases piece with
  | declaration declaration' => exact Option.some.inj converted ▸ rfl
  | _ => exact absurd converted nofun

theorem asParameter_regions (piece : Piece) (parameter : Parameter)
    (converted : asParameter piece = some parameter) : parameter.regions = piece.regions := by
  cases piece with
  | parameter parameter' => exact Option.some.inj converted ▸ rfl
  | _ => exact absurd converted nofun

end Conversions

/-- Names use nothing that not every version has. -/
theorem usesOf_names (names : List Identifier) : usesOf (names.map Identifier.region) = [] := by
  induction names with
  | nil => rfl
  | cons first rest ih => exact ih

/-! ## Declarations -/

section Declarations

variable {rule : Rule} {span : Span} {pieces : List Piece} {piece : Piece}

theorem makings_functionTail {name : Identifier} {isPublic isStatic : Bool}
    (made : functionTail name isPublic isStatic span pieces = some piece) :
    Makings .functionDeclaration span (name.region :: regionsOfPieces pieces) piece := by
  unfold functionTail at made
  split at made
  · exact Option.some.inj made ▸ makings_around nofun rfl rfl
  · exact Option.some.inj made ▸ makings_around nofun rfl rfl
  · exact absurd made nofun

theorem makings_functionOf (made : functionOf span pieces = some piece) :
    Makings .functionDeclaration span (regionsOfPieces pieces) piece := by
  unfold functionOf at made
  split at made
  · exact makings_functionTail made
  · exact makings_functionTail made
  · exact makings_functionTail made
  · exact makings_functionTail made
  · exact absurd made nofun

theorem makings_functionType {types : List TypeExpression}
    (made : functionType span types = some piece) :
    Makings .functionType span (types.map TypeExpression.region) piece := by
  unfold functionType at made
  split at made
  · next result parameters reversed =>
      obtain rfl := Option.some.inj made
      refine makings_around nofun rfl ?_
      rw [← List.reverse_reverse types, reversed, List.reverse_cons, List.map_append,
        ← regionsOfTypes_eq_map]
      rfl
  · exact absurd made nofun

/-- The rules whose pieces depend on more than the regions of their parts. -/
def particularRules : List Rule :=
  [.file, .typeDeclaration, .namedType, .fieldPlace, .expression, .suffixed]

theorem makings_assembleDeclaration (regular : rule ∉ particularRules)
    (made : assembleDeclaration rule span pieces = some piece) :
    Makings rule span (regionsOfPieces pieces) piece := by
  unfold assembleDeclaration at made
  split at made
  case h_1 | h_6 | h_17 => exact absurd (by decide) regular
  case h_4 =>
    rw [Option.bind_eq_bind, Option.bind_eq_some_iff] at made
    obtain ⟨names, converted, same⟩ := made
    obtain rfl := Option.some.inj same
    refine ⟨(fun _ same ↦ by cases same), .bare rfl ⟨List.nil_sublist _, ?_⟩⟩
    rw [← regions_of_mapM asName_regions converted, usesOf_names]
    rfl
  case h_5 namespaceName types =>
    rw [Option.bind_eq_bind, Option.bind_eq_some_iff] at made
    obtain ⟨declarations, converted, same⟩ := made
    obtain rfl := Option.some.inj same
    have regions : declarations.map TypeDeclaration.region = regionsOfPieces types :=
      regions_of_mapM asDeclaration_regions converted
    refine makings_bare (fun _ same ↦ by cases same) rfl ?_
    rw [Piece.regions, List.map_map]
    exact regions
  case h_9 => exact makings_functionOf made
  case h_10 =>
    rw [Option.bind_eq_bind, Option.bind_eq_some_iff] at made
    obtain ⟨parameters, converted, same⟩ := made
    obtain rfl := Option.some.inj same
    exact makings_bare (fun _ same ↦ by cases same) rfl
      (flatMap_of_mapM asParameter_regions converted)
  case h_14 | h_15 =>
    exact Option.some.inj made ▸ makings_around (fun _ same ↦ by cases same) rfl rfl
  case h_16 =>
    rw [Option.bind_eq_bind, Option.bind_eq_some_iff] at made
    obtain ⟨types, converted, made⟩ := made
    rw [← regions_of_mapM asType_regions converted]
    exact makings_functionType made
  case h_18 => cases made
  all_goals exact Option.some.inj made ▸ makings_bare (fun _ same ↦ by cases same) rfl rfl

end Declarations

/-! ## Statements and expressions -/

section Statements

variable {rule : Rule} {span : Span} {pieces : List Piece} {piece : Piece}

theorem makings_assembleStatement (regular : rule ∉ particularRules)
    (made : assembleStatement rule span pieces = some piece) :
    Makings rule span (regionsOfPieces pieces) piece := by
  unfold assembleStatement at made
  split at made
  case h_1 =>
    rw [Option.bind_eq_bind, Option.bind_eq_some_iff] at made
    obtain ⟨statements, converted, same⟩ := made
    obtain rfl := Option.some.inj same
    refine makings_around nofun rfl ?_
    rw [← regions_of_mapM asStatement_regions converted, ← regionsOfStatements_eq_map]
    rfl
  case h_12 | h_13 | h_15 => exact Option.some.inj made ▸ makings_bare nofun rfl rfl
  case h_14 => exact absurd (by decide) regular
  case h_16 => exact absurd made nofun
  all_goals exact Option.some.inj made ▸ makings_around nofun rfl rfl

theorem makings_operatorOf (made : operatorOf rule span = some piece) :
    Makings rule span [] piece := by
  unfold operatorOf at made
  split at made
  case h_1 | h_2 =>
    exact Option.some.inj made ▸ makings_bare (fun own same ↦ (Option.some.inj same).symm) rfl rfl
  case h_16 => exact absurd made nofun
  all_goals exact Option.some.inj made ▸ makings_bare nofun rfl rfl

theorem makings_assembleExpression (regular : rule ∉ particularRules)
    (made : assembleExpression rule span pieces = some piece) :
    Makings rule span (regionsOfPieces pieces) piece := by
  unfold assembleExpression at made
  split at made
  case h_1 | h_2 => exact absurd (by decide) regular
  case h_3 =>
    rw [Option.bind_eq_bind, Option.bind_eq_some_iff] at made
    obtain ⟨values, converted, same⟩ := made
    obtain rfl := Option.some.inj same
    refine makings_bare (fun own same ↦ (Option.some.inj same).symm) rfl ?_
    rw [← regions_of_mapM asExpression_regions converted, ← regionsIn_eq_map]
    rfl
  case h_4 | h_5 =>
    exact Option.some.inj made ▸ makings_bare (fun own same ↦ (Option.some.inj same).symm) rfl rfl
  case h_8 =>
    rw [Option.bind_eq_bind, Option.bind_eq_some_iff] at made
    obtain ⟨names, converted, same⟩ := made
    obtain rfl := Option.some.inj same
    exact makings_bare nofun rfl (regions_of_mapM asName_regions converted)
  case h_10 =>
    rw [Option.bind_eq_bind, Option.bind_eq_some_iff] at made
    obtain ⟨values, converted, same⟩ := made
    obtain rfl := Option.some.inj same
    refine makings_around nofun rfl ?_
    rw [← regions_of_mapM asExpression_regions converted, ← regionsIn_eq_map]
    rfl
  case h_11 =>
    rw [Option.bind_eq_bind, Option.bind_eq_some_iff] at made
    obtain ⟨names, converted, same⟩ := made
    obtain rfl := Option.some.inj same
    refine makings_around nofun rfl ?_
    rw [← regions_of_mapM asName_regions converted]
    rfl
  case h_12 => exact Option.some.inj made ▸ makings_bare nofun rfl rfl
  case h_14 => exact makings_operatorOf made
  case h_15 => exact absurd made nofun
  all_goals exact Option.some.inj made ▸ makings_around nofun rfl rfl

/-- What assembling makes of the parts of a rule, if nothing but their regions counts. -/
theorem makings_assemble (regular : rule ∉ particularRules)
    (made : assemble rule span pieces = some piece) :
    Makings rule span (regionsOfPieces pieces) piece := by
  unfold assemble at made
  split at made
  · next declared => exact Option.some.inj made ▸ makings_assembleDeclaration regular declared
  · split at made
    · next stated => exact Option.some.inj made ▸ makings_assembleStatement regular stated
    · exact makings_assembleExpression regular made

end Statements

/-! ## The members of a type -/

section Merging

variable {Value : Type} {before : Value → Value → Bool} {front first second : List Value} {value : Value}

/-- What comes before all of the second list stays in front. -/
theorem append_merge (ahead : ∀ value ∈ front, ∀ other ∈ second, before value other = true) :
    (front ++ first).merge second before = front ++ first.merge second before := by
  cases second with
  | nil => rw [List.merge_right, List.merge_right]
  | cons other rest =>
      induction front with
      | nil => rfl
      | cons value front ih =>
          obtain ⟨here, others⟩ := List.forall_mem_cons.mp ahead
          rw [List.cons_append, List.cons_merge_cons_pos _ _ _ (here other List.mem_cons_self), ih others]
          rfl

/-- What comes before all of the first list is taken from the second one at once. -/
theorem merge_cons (ahead : ∀ other ∈ first, ¬before other value = true) :
    first.merge (value :: second) before = value :: first.merge second before := by
  cases first with
  | nil => rw [List.nil_merge, List.nil_merge]
  | cons other rest => exact List.cons_merge_cons_neg _ _ _ (ahead other List.mem_cons_self)

end Merging

/-- The members of a type, put together again from its fields and its functions, are in the order in
which they start. -/
theorem merge_members {members : List Piece}
    (kinds : ∀ member ∈ members, (∃ field, member = .field field) ∨ ∃ function, member = .function function)
    (ordered : (regionsOfPieces members).Pairwise fun first second ↦
      first.span.start < second.span.start) :
    ((members.filterMap asField).flatMap FieldDeclaration.regions).merge
        ((members.filterMap asFunction).map FunctionDeclaration.region) Region.startsBefore =
      regionsOfPieces members := by
  induction members with
  | nil => exact List.nil_merge []
  | cons first rest ih =>
      obtain ⟨here, others⟩ := List.forall_mem_cons.mp kinds
      rw [regionsOfPieces, List.flatMap_cons, List.pairwise_append] at ordered
      obtain ⟨-, behind, apart⟩ := ordered
      have merged := ih others behind
      obtain ⟨field, rfl⟩ | ⟨function, rfl⟩ := here
      · refine (append_merge fun region inside other inside' ↦ ?_).trans
          (congrArg (field.regions ++ ·) merged)
        have later : other ∈ regionsOfPieces rest := merged ▸ List.mem_merge.mpr (.inr inside')
        exact decide_eq_true (Nat.le_of_lt (apart region inside other later))
      · refine (merge_cons fun other inside ↦ ?_).trans (congrArg (function.region :: ·) merged)
        have later : other ∈ regionsOfPieces rest := merged ▸ List.mem_merge.mpr (.inl inside)
        have starts := apart function.region List.mem_cons_self other later
        exact fun same ↦ absurd (of_decide_eq_true same) (Nat.not_le_of_lt starts)

/-! ## Rules with a piece of a particular kind -/

section Particular

variable {text : List Char} {span : Span} {start stop : Nat} {pieces : List Piece} {piece : Piece}

theorem makings_typeDeclaration {name : Identifier} {members : List Piece}
    (kinds : ∀ member ∈ members, (∃ field, member = .field field) ∨ ∃ function, member = .function function)
    (placed : ArePlaced text start stop (regionsOfPieces members)) :
    Makings .typeDeclaration span (regionsOfPieces (.name name :: members)) (.declaration
      ⟨"", name, members.filterMap asField, members.filterMap asFunction, span⟩) := by
  refine makings_around nofun rfl ?_
  rw [Piece.regions, TypeDeclaration.region, merge_members kinds placed.starts]
  rfl

/-- A place is where the name of its field is; the receiver in front of it is left out. -/
theorem makings_fieldPlace {receiver : Expression} {name : Identifier}
    (without : receiver.region.uses = []) :
    Makings .fieldPlace span (regionsOfPieces [.expression receiver, .name name])
      (.place (.field name)) := by
  refine ⟨nofun, .bare rfl ⟨List.sublist_cons_self _ _, ?_⟩⟩
  rw [regionsOfPieces, List.flatMap_cons, usesOf_append]
  exact (List.append_left_eq_self.mpr ((List.append_nil _).trans without)).symm

/-- A piece is a module that a file asks for. -/
def IsUse (piece : Piece) : Prop :=
  ∃ name, piece = .usedModule name

/-- A piece is a type or a namespace with types. -/
def IsItem (piece : Piece) : Prop :=
  (∃ declaration, piece = .declaration declaration) ∨ ∃ declarations, piece = .group declarations

theorem regions_uses {uses : List Piece} (kinds : ∀ piece ∈ uses, IsUse piece) :
    (uses.filterMap asUsedModule).map Identifier.region = regionsOfPieces uses ∧
      uses.flatMap asDeclarations = [] := by
  induction uses with
  | nil => exact ⟨rfl, rfl⟩
  | cons first rest ih =>
      obtain ⟨⟨name, rfl⟩, others⟩ := List.forall_mem_cons.mp kinds
      obtain ⟨regions, none⟩ := ih others
      exact ⟨congrArg (name.region :: ·) regions, none⟩

theorem regions_items {items : List Piece} (kinds : ∀ piece ∈ items, IsItem piece) :
    items.filterMap asUsedModule = [] ∧
      (items.flatMap asDeclarations).map TypeDeclaration.region = regionsOfPieces items := by
  induction items with
  | nil => exact ⟨rfl, rfl⟩
  | cons first rest ih =>
      obtain ⟨here, others⟩ := List.forall_mem_cons.mp kinds
      obtain ⟨none, regions⟩ := ih others
      obtain ⟨declaration, rfl⟩ | ⟨declarations, rfl⟩ := here
      · exact ⟨none, congrArg (declaration.region :: ·) regions⟩
      · refine ⟨none, ?_⟩
        rw [List.flatMap_cons, List.map_append, regions]
        rfl

theorem makings_file {uses items : List Piece} (modules : ∀ piece ∈ uses, IsUse piece)
    (kinds : ∀ piece ∈ items, IsItem piece) :
    Makings .file span (regionsOfPieces (uses ++ (items ++ [Piece.ending]))) (.file
      ⟨(uses ++ (items ++ [Piece.ending])).filterMap asUsedModule,
        (uses ++ (items ++ [Piece.ending])).flatMap asDeclarations⟩) := by
  obtain ⟨regions, undeclared⟩ := regions_uses modules
  obtain ⟨unnamed, regions'⟩ := regions_items kinds
  refine makings_bare nofun rfl ?_
  have ending : [Piece.ending].filterMap asUsedModule = [] ∧ [Piece.ending].flatMap asDeclarations = [] ∧
      regionsOfPieces [Piece.ending] = [] := ⟨rfl, rfl, rfl⟩
  simp only [regionsOfPieces] at regions regions' ending
  simp only [Piece.regions, File.regions, regionsOfPieces, List.filterMap_append, List.flatMap_append,
    undeclared, unnamed, regions, regions', ending, List.append_nil, List.nil_append]

end Particular

end Assembly

end GuestScript.Syntax
