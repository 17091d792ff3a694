import Rewind.Cursor.Steps
import Rewind.Result.Steps
import Rewind.Rule.Handmade
import Rewind.Main
import Rewind.Proofs.Arithmetic.Sound
import Rewind.Proofs.Document.Total
import Rewind.Proofs.Repetition
import Rewind.Proofs.Recursion
import Rewind.Proofs.History
import Rewind.Proofs.Translation
import Rewind.Proofs.Origins
import Rewind.Proofs.Unfolding
import Rewind.Proofs.SelfReference
import Rewind.Proofs.Sharing
import Rewind.Proofs.Tracing
import Rewind.Proofs.Thunks
import Rewind.Proofs.Binding
import Rewind.Proofs.Chains
import Rewind.Proofs.Brackets
import Rewind.Proofs.Names
import Rewind.Proofs.Renaming
import Rewind.Proofs.Greedy
import Rewind.Proofs.Separated
import Rewind.Proofs.Folds
import Rewind.Proofs.Sequences
import Rewind.Proofs.Choices
import Rewind.Proofs.Words
import Rewind.Proofs.Counted
import Rewind.Proofs.Outcomes
import Rewind.Proofs.Lookahead
import Rewind.Proofs.Spacing
import Rewind.Proofs.Literals
import Rewind.Proofs.Assignment
import Rewind.Proofs.Document.Numbers
import Rewind.Proofs.Nesting
import Rewind.Proofs.Verdicts
import Rewind.Proofs.Walks
import Rewind.Proofs.CharacterSets
import Rewind.Proofs.Arithmetic.Integers
