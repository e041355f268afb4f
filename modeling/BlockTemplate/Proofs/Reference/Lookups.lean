import BlockTemplate.Node.Basic
import BlockTemplate.Proofs.Outcome
import BlockTemplate.Reference.Resolve

/-!
# What a reference looks up

Resolving a reference looks up its own name, and then the names in the arguments of its callbacks:
those of references there, and of the tags embedded in texts, at any depth. No other variable plays
a part.

## Key results

- `Reference.resolve_congr`: variables that agree on what is looked up give the same value
- `chunksText_congr`: and the same text
-/

namespace BlockTemplate

mutual

/-- The names that a reference looks up. -/
def Reference.lookups : Reference → List Label
  | .mk _ name _ calls => name :: callsLookups calls

def callsLookups : List Call → List Label
  | [] => []
  | .mk _ none _ :: rest => callsLookups rest
  | .mk _ (some arguments) _ :: rest => argumentsLookups arguments ++ callsLookups rest

def argumentsLookups : List Argument → List Label
  | [] => []
  | argument :: rest => argument.lookups ++ argumentsLookups rest

def Argument.lookups : Argument → List Label
  | .literal _ => []
  | .reference target => target.lookups
  | .text chunks => chunksLookups chunks

/-- The names that the tags of a text look up. -/
def chunksLookups : List Chunk → List Label
  | [] => []
  | .tag target :: rest => target.lookups ++ chunksLookups rest
  | .literal _ :: rest => chunksLookups rest
  | .other _ :: rest => chunksLookups rest

end

/-- The names that only the arguments of callbacks look up. -/
def chunksArgumentLookups (chunks : List Chunk) : List Label :=
  chunks.flatMap fun
    | .tag target => callsLookups target.calls
    | _ => []

theorem mem_chunksLookups {chunks : List Chunk} {name : Label} :
    name ∈ chunksLookups chunks
      ↔ name ∈ chunksTags chunks ∨ name ∈ chunksArgumentLookups chunks := by
  induction chunks with
  | nil => simp [chunksLookups, chunksTags, chunksArgumentLookups]
  | cons chunk rest ih =>
    cases chunk with
    | tag target =>
      obtain ⟨source, head, keys, calls⟩ := target
      have htags : chunksTags (.tag (.mk source head keys calls) :: rest)
          = head :: chunksTags rest := rfl
      have harguments : chunksArgumentLookups (.tag (.mk source head keys calls) :: rest)
          = callsLookups calls ++ chunksArgumentLookups rest := rfl
      rw [chunksLookups, Reference.lookups, htags, harguments]
      simp only [List.mem_append, List.mem_cons, ih]
      exact or_or_or_comm
    | literal text => exact ih
    | other label => exact ih

/-- Whether two bags of variables have the same value for each of the names. -/
def AgreeOn (names : List Label) (vars vars' : List (Key × Value)) : Prop :=
  ∀ name ∈ names, ∀ key ∈ name.key?, valueOf? key vars = valueOf? key vars'

theorem agreeOn_append {names others : List Label} {vars vars' : List (Key × Value)} :
    AgreeOn (names ++ others) vars vars'
      ↔ AgreeOn names vars vars' ∧ AgreeOn others vars vars' :=
  List.forall_mem_append

theorem agreeOn_cons {name : Label} {names : List Label} {vars vars' : List (Key × Value)} :
    AgreeOn (name :: names) vars vars'
      ↔ (∀ key ∈ name.key?, valueOf? key vars = valueOf? key vars') ∧ AgreeOn names vars vars' :=
  List.forall_mem_cons

section
variable (ctx : Context) {vars : List (Key × Value)}

theorem valueOf_congr {name : Label}
    (h : ∀ key ∈ name.key?, valueOf? key ctx.vars = valueOf? key vars) :
    { ctx with vars }.valueOf name = ctx.valueOf name := by
  rw [Context.valueOf, Context.valueOf, Json.toKey]
  cases hkey : name.key? with
  | none => rfl
  | some key =>
    simp only [ok_bind]
    rw [h key hkey]

theorem target_congr {source name : Label} {keys : List Label} {calls : List Call}
    (h : ∀ key ∈ name.key?, valueOf? key ctx.vars = valueOf? key vars) :
    (Reference.mk source name keys calls).target { ctx with vars }
      = (Reference.mk source name keys calls).target ctx := by
  rw [Reference.target, Reference.target, Reference.name, valueOf_congr ctx h]

mutual

/-- Variables that agree on what a reference looks up give it the same value. -/
theorem Reference.resolve_congr (tag : Reference) (h : AgreeOn tag.lookups ctx.vars vars) :
    tag.resolve { ctx with vars } = tag.resolve ctx := by
  match tag with
  | .mk source name keys calls =>
    obtain ⟨hname, hcalls⟩ := agreeOn_cons.1 h
    rw [Reference.resolve, Reference.resolve, target_congr ctx hname]
    exact bind_congr fun running => resolveCalls_congr _ running calls hcalls

theorem resolveCalls_congr (tag : Reference) (running : Value) (calls : List Call)
    (h : AgreeOn (callsLookups calls) ctx.vars vars) :
    resolveCalls { ctx with vars } tag running calls = resolveCalls ctx tag running calls := by
  match calls with
  | [] => rw [resolveCalls, resolveCalls]
  | .mk name none source :: rest =>
    have hrest (running : Value) := resolveCalls_congr tag running rest h
    rw [resolveCalls, resolveCalls]
    simp only [hrest]
    rfl
  | .mk name (some arguments) source :: rest =>
    obtain ⟨harguments, hrest⟩ := agreeOn_append.1 h
    have hrest (running : Value) := resolveCalls_congr tag running rest hrest
    have harguments := resolveArguments_congr running arguments harguments
    rw [resolveCalls, resolveCalls]
    simp only [hrest, harguments]
    rfl

theorem resolveArguments_congr (running : Value) (arguments : List Argument)
    (h : AgreeOn (argumentsLookups arguments) ctx.vars vars) :
    resolveArguments { ctx with vars } running arguments
      = resolveArguments ctx running arguments := by
  match arguments with
  | [] => rw [resolveArguments, resolveArguments]
  | argument :: rest =>
    obtain ⟨hargument, hrest⟩ := agreeOn_append.1 h
    rw [resolveArguments, resolveArguments, Argument.resolve_congr running argument hargument,
      resolveArguments_congr running rest hrest]

theorem Argument.resolve_congr (running : Value) (argument : Argument)
    (h : AgreeOn argument.lookups ctx.vars vars) :
    argument.resolve { ctx with vars } running = argument.resolve ctx running := by
  match argument with
  | .literal value => rw [Argument.resolve, Argument.resolve]
  | .reference target =>
    rw [Argument.resolve, Argument.resolve]
    exact target.resolve_congr h
  | .text chunks =>
    rw [Argument.resolve, Argument.resolve, renderChunks_congr hideMark chunks h]

theorem renderChunks_congr (onTag : List Char → List Char) (chunks : List Chunk)
    (h : AgreeOn (chunksLookups chunks) ctx.vars vars) :
    renderChunks { ctx with vars } onTag chunks = renderChunks ctx onTag chunks := by
  match chunks with
  | [] => rw [renderChunks, renderChunks]
  | .literal text :: rest =>
    rw [renderChunks, renderChunks, renderChunks_congr onTag rest h]
  | .tag target :: rest =>
    obtain ⟨htarget, hrest⟩ := agreeOn_append.1 h
    rw [renderChunks, renderChunks, target.resolve_congr htarget,
      renderChunks_congr onTag rest hrest]
  | .other label :: rest =>
    rw [renderChunks, renderChunks, renderChunks_congr onTag rest h]

end

/-- Variables that agree on what the tags of a text look up give it the same text. -/
theorem chunksText_congr {chunks : List Chunk} (h : AgreeOn (chunksLookups chunks) ctx.vars vars) :
    chunksText { ctx with vars } chunks = chunksText ctx chunks := by
  rw [chunksText, chunksText, renderChunks_congr ctx id chunks h]

end

end BlockTemplate
