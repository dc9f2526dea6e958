import HabiCore.LockedProcesses

/-!
# Programs in an open environment

What a program does while nobody else touches the memory of its process.  The
environment answers its requests and takes its messages as it likes, within
what it may answer.
-/

namespace LockedProcesses

variable {ι κ ς σ α μ φ ρ δ : Type}

/-- What others see of a program: its attempts to save the memory, its requests,
the outcomes of its requests, and its one-way messages with their results. -/
inductive Effect (α μ φ : Type) where
  | persisted
  | asked (address : α) (message : μ)
  | answered (answer : Except φ μ)
  | sent (address : α) (message : μ) (result : Except φ Unit)

def Effect.attempt : Effect α μ φ → Option (α × μ)
  | .sent address message _ => some (address, message)
  | _ => none

/-- A message that has been addressed to someone, whether it has arrived or not. -/
def Effect.addressed : Effect α μ φ → Option (α × μ)
  | .asked address message => some (address, message)
  | .sent address message _ => some (address, message)
  | _ => none

def Effect.answer : Effect α μ φ → Option (Except φ μ)
  | .answered answer => some answer
  | _ => none

def AnyAnswer (_ : α) (_ : μ) (_ : Except φ μ) : Prop := True

namespace Program

/-- The program has the effects and leaves a memory and a reply. -/
inductive Performs (execute : ς → σ → σ) (mayAnswer : α → μ → Except φ μ → Prop) :
    Program ς σ α μ φ ρ → σ → List (Effect α μ φ) → σ → ρ → Prop
  | done {reply : ρ} {found : σ} : Performs execute mayAnswer (.done reply) found [] found reply
  | locked {body : ς} {next : σ → Program ς σ α μ φ ρ} {found left : σ}
      {effects : List (Effect α μ φ)} {reply : ρ} :
      Performs execute mayAnswer (next found) (execute body found) effects left reply →
        Performs execute mayAnswer (.locked body next) found effects left reply
  | persist {next : Program ς σ α μ φ ρ} {found left : σ} {effects : List (Effect α μ φ)}
      {reply : ρ} :
      Performs execute mayAnswer next found effects left reply →
        Performs execute mayAnswer (.persist next) found (.persisted :: effects) left reply
  | exchange {address : α} {message : μ} {next : Except φ μ → Program ς σ α μ φ ρ}
      {answer : Except φ μ} {found left : σ} {effects : List (Effect α μ φ)} {reply : ρ} :
      mayAnswer address message answer →
      Performs execute mayAnswer (next answer) found effects left reply →
        Performs execute mayAnswer (.exchange address message next) found
          (.asked address message :: .answered answer :: effects) left reply
  | send {address : α} {message : μ} {next : Except φ Unit → Program ς σ α μ φ ρ}
      {result : Except φ Unit} {found left : σ} {effects : List (Effect α μ φ)} {reply : ρ} :
      Performs execute mayAnswer (next result) found effects left reply →
        Performs execute mayAnswer (.send address message next) found
          (.sent address message result :: effects) left reply

variable {execute : ς → σ → σ} {mayAnswer : α → μ → Except φ μ → Prop} {found left : σ}
  {effects : List (Effect α μ φ)} {reply : ρ}

theorem performs_done {given : ρ} :
    (done given : Program ς σ α μ φ ρ).Performs execute mayAnswer found effects left reply ↔
      effects = [] ∧ left = found ∧ reply = given := by
  constructor
  · rintro ⟨⟩
    exact ⟨rfl, rfl, rfl⟩
  · rintro ⟨rfl, rfl, rfl⟩
    exact .done

theorem performs_locked {body : ς} {next : σ → Program ς σ α μ φ ρ} :
    (locked body next).Performs execute mayAnswer found effects left reply ↔
      (next found).Performs execute mayAnswer (execute body found) effects left reply := by
  constructor
  · rintro ⟨⟩
    assumption
  · exact .locked

theorem performs_persist {next : Program ς σ α μ φ ρ} :
    (persist next).Performs execute mayAnswer found effects left reply ↔
      ∃ later, effects = .persisted :: later ∧
        next.Performs execute mayAnswer found later left reply := by
  constructor
  · rintro ⟨⟩
    exact ⟨_, rfl, by assumption⟩
  · rintro ⟨later, rfl, performs⟩
    exact .persist performs

theorem performs_exchange {address : α} {message : μ} {next : Except φ μ → Program ς σ α μ φ ρ} :
    (exchange address message next).Performs execute mayAnswer found effects left reply ↔
      ∃ answer later, mayAnswer address message answer ∧
        effects = .asked address message :: .answered answer :: later ∧
        (next answer).Performs execute mayAnswer found later left reply := by
  constructor
  · rintro ⟨⟩
    exact ⟨_, _, by assumption, rfl, by assumption⟩
  · rintro ⟨answer, later, answers, rfl, performs⟩
    exact .exchange answers performs

theorem performs_send {address : α} {message : μ} {next : Except φ Unit → Program ς σ α μ φ ρ} :
    (send address message next).Performs execute mayAnswer found effects left reply ↔
      ∃ result later, effects = .sent address message result :: later ∧
        (next result).Performs execute mayAnswer found later left reply := by
  constructor
  · rintro ⟨⟩
    exact ⟨_, _, rfl, by assumption⟩
  · rintro ⟨result, later, rfl, performs⟩
    exact .send performs

/-- An environment that always has an answer lets every program come to its end. -/
theorem exists_performs (answers : ∀ address message, ∃ answer, mayAnswer address message answer)
    (results : Nonempty (Except φ Unit)) (program : Program ς σ α μ φ ρ) (found : σ) :
    ∃ effects left reply, program.Performs execute mayAnswer found effects left reply := by
  induction program generalizing found with
  | done reply => exact ⟨_, _, _, .done⟩
  | locked body next ih =>
      obtain ⟨effects, left, reply, performs⟩ := ih found (execute body found)
      exact ⟨_, _, _, .locked performs⟩
  | persist next ih =>
      obtain ⟨effects, left, reply, performs⟩ := ih found
      exact ⟨_, _, _, .persist performs⟩
  | exchange address message next ih =>
      obtain ⟨answer, isAnswer⟩ := answers address message
      obtain ⟨effects, left, reply, performs⟩ := ih answer found
      exact ⟨_, _, _, .exchange isAnswer performs⟩
  | send address message next ih =>
      obtain ⟨result⟩ := results
      obtain ⟨effects, left, reply, performs⟩ := ih result found
      exact ⟨_, _, _, .send performs⟩

end Program

end LockedProcesses
