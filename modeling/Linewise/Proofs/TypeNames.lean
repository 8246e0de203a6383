import Linewise.Proofs.Outcome
import Linewise.Proofs.Overrides

/-! # The names of types

A type that is declared is named by the alias of the caller, or else by the one of the project file,
or else as it is without any settings. The alias itself is not looked up, and no other token of a
line is. A translation therefore depends on the aliases by the declared types alone.
-/

namespace Linewise

namespace Settings

variable {extension checkBlocks : Value} {settings : Settings}

theorem readAliasEntries_texts (aliases : Entries String) :
    readAliasEntries (aliases.mapValues .text) = (aliases, []) := by
  induction aliases with
  | nil => rfl
  | cons first rest ih =>
    change readAliasEntries ((first.1, .text first.2) :: Entries.mapValues .text rest) = _
    rw [readAliasEntries, ih]

theorem ofValues_texts_eq_ok_iff (aliases : Entries String) :
    ofValues (some extension) (some (.table (aliases.mapValues .text))) (some checkBlocks) =
        .ok settings ↔
      readExtension extension = .ok settings.extension ∧ settings.aliases = aliases ∧
        readFlag checkBlocks = .ok settings.checkBlocks := by
  obtain ⟨suffix, given, check⟩ := settings
  simp only [ofValues, Option.getD_some, readAliases, readAliasEntries_texts]
  cases readExtension extension <;> cases readFlag checkBlocks <;> simp [eq_comm]

end Settings

namespace Project

/-- The aliases that a project file and a caller have for what lies at a path. -/
structure AliasTables (tree : FileTree) (path : FilePath) where
  given : Given
  project : Entries String
  entries : Entries Value
  directory : Option (List String)
  found : find tree path = .ok ⟨.table entries, directory⟩
  project_eq : entryOf "type_aliases" entries = .table (project.mapValues .text)
  nodup : (Entries.keys project).Nodup

namespace AliasTables

variable {tree : FileTree} {path : FilePath} {settings : Settings}

def caller (tables : AliasTables tree path) : Entries String :=
  tables.given.aliases.getD []

/-- The name of a type: its alias of the caller, or else that of the project, or else the name that
it has without any settings. -/
def name (tables : AliasTables tree path) (type : String) : String :=
  match Entries.get? type tables.caller, Entries.get? type tables.project with
  | some named, _ => named
  | none, some named => named
  | none, none => if type = "float" then "number" else type

theorem nodup_caller (tables : AliasTables tree path) : (Entries.keys tables.caller).Nodup := by
  have h : (Entries.keys (tables.caller.mapValues Value.text)).Nodup :=
    tables.given.nodup_aliasEntries
  rwa [Entries.keys_mapValues] at h

theorem load_eq_ok_iff (tables : AliasTables tree path) :
    load tree path tables.given.overrides = .ok settings ↔
      Settings.readExtension (chosenExtension tables.entries tables.given.overrides) =
          .ok settings.extension ∧
        settings.aliases = tables.project.putAll tables.caller ∧
          Settings.readFlag (tables.given.checkBlocksOver tables.entries) =
            .ok settings.checkBlocks := by
  have hmerged : (tables.project.mapValues Value.text).overlay tables.given.aliasEntries =
      (tables.project.putAll tables.caller).mapValues .text := by
    rw [← Entries.putAll_eq_overlay tables.given.nodup_aliasEntries, Entries.mapValues_putAll]
    rfl
  rw [tables.given.load_overrides tables.found rfl tables.project_eq, hmerged,
    ← Settings.ofValues_texts_eq_ok_iff]
  cases Settings.ofValues _ _ _ <;> simp [Except.mapError]

theorem typeName_eq_name (tables : AliasTables tree path)
    (h : load tree path tables.given.overrides = .ok settings) (type : String) :
    TypeScript.typeName settings.aliases type = tables.name type := by
  obtain ⟨-, haliases, -⟩ := tables.load_eq_ok_iff.mp h
  have hknown : Entries.get? type TypeScript.builtinAliases =
      if type = "float" then some "number" else none := by
    simp [TypeScript.builtinAliases, Entries.get?, eq_comm]
  rw [TypeScript.typeName, TypeScript.aliasTable, haliases,
    Entries.get?_putAll (Entries.nodup_keys_putAll tables.nodup),
    Entries.get?_putAll tables.nodup_caller, hknown, name]
  cases Entries.get? type tables.caller with
  | some named => rfl
  | none =>
    cases Entries.get? type tables.project with
    | some named => rfl
    | none => by_cases htype : type = "float" <;> simp [htype]

end AliasTables

end Project

/-- The types that a statement declares: those of a variable and of a result. -/
def Statement.declaredTypes : Statement → List String
  | variableDecl _ type _ _ => [type]
  | functionDecl _ _ returns => [returns]
  | _ => []

namespace TypeScript

variable {aliases : Entries String} {naming other : String → String}

def Piece.textBy (naming : String → String) : Piece → String
  | .fixed text => text
  | .token t => t
  | .type name => naming name

def Piece.type? : Piece → Option String
  | .type name => some name
  | _ => none

def lineBy (naming : String → String) (statement : Statement) : String :=
  String.join ((pieces statement).map (Piece.textBy naming))

def codeBy (naming : String → String) (program : Program) : String :=
  "\n".intercalate (program.statements.map (lineBy naming))

theorem line_eq_lineBy (h : ∀ type, typeName aliases type = naming type) (statement : Statement) :
    line aliases statement = lineBy naming statement := by
  have htext : ∀ p : Piece, p.text aliases = p.textBy naming := fun p => by
    cases p with
    | type type => exact h type
    | fixed | token => rfl
  rw [String.ext_iff, toList_line, chars, lineBy, String.toList_join, List.flatMap_map]
  simp only [htext]

def types (ps : List Piece) : List String :=
  ps.flatMap fun p => p.type?.toList

@[simp] theorem types_nil : types [] = [] := rfl

@[simp] theorem types_cons (p : Piece) (ps : List Piece) :
    types (p :: ps) = p.type?.toList ++ types ps := rfl

@[simp] theorem types_append (ps qs : List Piece) : types (ps ++ qs) = types ps ++ types qs :=
  List.flatMap_append

@[simp] theorem types_joined (mark : String) (groups : List (List Piece)) :
    types (joined mark groups) = groups.flatMap types :=
  flatMap_joined rfl groups

theorem types_pieces (statement : Statement) :
    types (pieces statement) = statement.declaredTypes := by
  cases statement with
  | returnValue value =>
    cases value <;> simp [pieces, Piece.type?, Statement.declaredTypes, List.flatMap_map]
  | _ => simp [pieces, Piece.type?, Statement.declaredTypes, List.flatMap_map]

theorem lineBy_congr {statement : Statement}
    (h : ∀ type ∈ statement.declaredTypes, naming type = other type) :
    lineBy naming statement = lineBy other statement := by
  have htext : ∀ p ∈ pieces statement, p.textBy naming = p.textBy other := fun p hp => by
    cases p with
    | fixed | token => rfl
    | type type =>
      refine h type ?_
      rw [← types_pieces]
      exact List.mem_flatMap.mpr ⟨_, hp, List.mem_singleton_self type⟩
  rw [lineBy, lineBy, List.map_congr_left htext]

theorem codeBy_congr {program : Program}
    (h : ∀ statement ∈ program.statements, ∀ type ∈ statement.declaredTypes,
      naming type = other type) : codeBy naming program = codeBy other program := by
  have hlines := List.map_congr_left fun statement hmem => lineBy_congr (h statement hmem)
  rw [codeBy, codeBy, hlines]

end TypeScript

namespace Translator

variable {tree : FileTree} {path : FilePath} {settings other : Settings}

theorem parse_congr (h : settings.checkBlocks = other.checkBlocks) (text : String) :
    parse settings text = parse other text := by
  rw [parse, parse, h]

theorem translate_of_load (tables : Project.AliasTables tree path)
    (h : Project.load tree path tables.given.overrides = .ok settings) (text : String) :
    translate settings text = (parse settings text).map (TypeScript.codeBy tables.name) := by
  have hcode : TypeScript.code settings.aliases = TypeScript.codeBy tables.name := by
    funext program
    rw [TypeScript.code, TypeScript.lines, TypeScript.codeBy,
      funext (TypeScript.line_eq_lineBy (tables.typeName_eq_name h))]
  rw [translate, hcode]

/-- Settings are loaded whatever the aliases are, and under them a translation has the names of the
tables for the types that its statements declare and for these alone, so that a parameter keeps its
type. Two pairs of tables with the same names for these types give the same translation. -/
theorem declared_types_are_named (tables : Project.AliasTables tree path) :
    ((∃ settings, Project.load tree path tables.given.overrides = .ok settings) ↔
      (∃ extension, Settings.readExtension
        (Project.chosenExtension tables.entries tables.given.overrides) = .ok extension) ∧
      ∃ checkBlocks, Settings.readFlag (tables.given.checkBlocksOver tables.entries) =
        .ok checkBlocks) ∧
    ∀ settings, Project.load tree path tables.given.overrides = .ok settings →
      (∀ text, translate settings text =
        (parse settings text).map (TypeScript.codeBy tables.name)) ∧
      (∀ statement, TypeScript.types (TypeScript.pieces statement) = statement.declaredTypes) ∧
      (∀ name params returns, TypeScript.line settings.aliases (.functionDecl name params returns) =
        "function " ++ name ++ "(" ++ TypeScript.listed (params.map fun p => p.1 ++ ": " ++ p.2) ++
          "): " ++ tables.name returns ++ " \x7b") ∧
      ∀ {otherTree otherPath} (others : Project.AliasTables otherTree otherPath) otherSettings,
        Project.load otherTree otherPath others.given.overrides = .ok otherSettings →
        settings.checkBlocks = otherSettings.checkBlocks →
        ∀ text, (∀ program, Program.ofText text = .ok program →
            ∀ statement ∈ program.statements, ∀ type ∈ statement.declaredTypes,
              tables.name type = others.name type) →
          translate settings text = translate otherSettings text := by
  refine ⟨⟨fun ⟨settings, hload⟩ => ?_, fun ⟨⟨extension, hextension⟩, checkBlocks, hcheck⟩ => ?_⟩,
    fun settings hload => ⟨translate_of_load tables hload, TypeScript.types_pieces,
      fun name params returns => ?_, fun others otherSettings hother hcheck text hsame => ?_⟩⟩
  · obtain ⟨hextension, -, hcheck⟩ := tables.load_eq_ok_iff.mp hload
    exact ⟨⟨_, hextension⟩, _, hcheck⟩
  · exact ⟨⟨extension, tables.project.putAll tables.caller, checkBlocks⟩,
      tables.load_eq_ok_iff.mpr ⟨hextension, rfl, hcheck⟩⟩
  · rw [← tables.typeName_eq_name hload]
    rfl
  · rw [translate_of_load tables hload, translate_of_load others hother, ← parse_congr hcheck]
    cases hparse : parse settings text with
    | error fault => rfl
    | ok program =>
      have hread := (parse_eq_ok_iff.mp hparse).1
      exact congrArg Except.ok (TypeScript.codeBy_congr (hsame program hread))

/-- Two names that stand for each other are exchanged once, and a parameter keeps its type. -/
theorem declared_types_are_named_exchanged :
    let tree := Project.topProject
      "at = 07:32:00\n[tool.linescript.type_aliases]\nnumber = \"float\"\nfloat = \"number\"\n"
    let project : Entries String := [("number", "float"), ("float", "number")]
    let settings : Settings := { aliases := project ++ [("string", "number")] }
    let text := "func f float x -> float\nnumber y = x\nconst string z = y\nend"
    let code := "function f(x: float): number \x7b\nlet y: float = x;\nconst z: number = y;\n\x7d"
    ∃ tables : Project.AliasTables tree {},
      tables.project = project ∧ tables.caller = [("string", "number")] ∧
        Project.load tree {} tables.given.overrides = .ok settings ∧
        translate settings text = .ok code ∧
        (parse settings text).map (TypeScript.codeBy tables.name) = .ok code := by
  intro tree project settings text code
  have hdocument : Toml.parse
      "at = 07:32:00\n[tool.linescript.type_aliases]\nnumber = \"float\"\nfloat = \"number\"\n" =
        .ok [("at", .time ⟨7, 32, 0, 0⟩), ("tool", .table [("linescript",
          .table [("type_aliases", .table (project.mapValues .text))])])] := by cbv
  let tables : Project.AliasTables tree {} :=
    { given := { aliases := some [("string", "number")] }
      project := project
      entries := [("type_aliases", .table (project.mapValues .text))]
      directory := some []
      found := Project.find_topProject hdocument rfl
      project_eq := rfl
      nodup := by decide }
  have hload : Project.load tree {} tables.given.overrides = .ok settings :=
    tables.load_eq_ok_iff.mpr ⟨rfl, rfl, rfl⟩
  have hread : Program.ofText "func f float x -> float\nnumber y = x\nconst string z = y\nend" =
      .ok ⟨[.functionDecl "f" [("x", "float")] "float", .variableDecl "y" "number" false ["x"],
        .variableDecl "z" "string" true ["y"], .blockEnd], [1, 2, 3, 4]⟩ := by cbv
  have hcode : translate settings text = .ok code := by
    rw [translate_of_ofText rfl hread]
    decide
  have hnamed := ((declared_types_are_named tables).2 settings hload).1 text
  exact ⟨tables, rfl, rfl, hload, hcode, hnamed.symm.trans hcode⟩

end Translator
end Linewise
