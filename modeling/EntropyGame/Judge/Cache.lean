import EntropyGame.Judge.Basic
import EntropyGame.Text.Words

namespace EntropyGame.Judge.Cache

/-- The tokens of a text: a longest run of word characters, with the one space before it if there
is one, or any other single character. -/
def split (isWord : Char → Bool) (cs : List Char) : List (List Char) :=
  match cs with
  | [] => []
  | c :: cs =>
    if c = ' ' then
      (c :: cs.takeWhile isWord) :: split isWord (cs.drop (cs.takeWhile isWord).length)
    else if isWord c then
      (c :: cs.takeWhile isWord) :: split isWord (cs.drop (cs.takeWhile isWord).length)
    else [c] :: split isWord cs
termination_by cs.length
decreasing_by all_goals simp only [List.length_drop, List.length_cons]; omega

def tokenize (text : String) : List String :=
  (split Text.isAlphanumeric text.toList).map String.ofList

/-- The weight that every token has before it is ever seen. -/
def smoothing : Float := 0.5

def vocabulary : Float := 50000.0

/-- The cost of a token by how often it came among those before it, in whatever order. -/
def cost (before : List String) (token : String) : Float :=
  let seen := Float.ofNat (before.count token)
  let share := (seen + smoothing) / (Float.ofNat before.length + smoothing * vocabulary)
  share.log2.neg

/-- The cost of each token after the ones `before`. -/
def costs (before : List String) : List String → List Float
  | [] => []
  | token :: tokens => cost before token :: costs (token :: before) tokens

def score (tokens : List String) (given : Nat) : Except JudgeFault (List Float) :=
  if tokens.length < given then .error (.beyondEnd given tokens.length)
  else .ok (costs (tokens.take given) (tokens.drop given))

def model : String := "cache"

/-- The judge that expects what it has seen before. -/
def judge (seed : Nat) : Judge where
  config := ⟨model, seed⟩
  tokenize := tokenize
  score := score

end Cache

/-- Builds the judges that come with the library. -/
def builtin : JudgeMaker := fun config =>
  if config.model = Cache.model then .ok (Cache.judge config.seed)
  else .error (.unknownModel config.model)

end EntropyGame.Judge
