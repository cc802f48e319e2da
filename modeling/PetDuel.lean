import PetDuel.Content.Table
import PetDuel.Proofs.Accounts
import PetDuel.Proofs.CaptureOdds
import PetDuel.Proofs.Carriers
import PetDuel.Proofs.Categories
import PetDuel.Proofs.Chance
import PetDuel.Proofs.Copies
import PetDuel.Proofs.CopiesByNumber
import PetDuel.Proofs.Escapes
import PetDuel.Proofs.Faithful
import PetDuel.Proofs.FootprintsKept
import PetDuel.Proofs.Grammar
import PetDuel.Proofs.Hindsight
import PetDuel.Proofs.Instances
import PetDuel.Proofs.Lexemes
import PetDuel.Proofs.Lifetimes
import PetDuel.Proofs.LookingBack
import PetDuel.Proofs.Mirror
import PetDuel.Proofs.Nesting
import PetDuel.Proofs.OptionEdits
import PetDuel.Proofs.Outside
import PetDuel.Proofs.Passes
import PetDuel.Proofs.Picks
import PetDuel.Proofs.Refusal
import PetDuel.Proofs.Removals
import PetDuel.Proofs.Rows
import PetDuel.Proofs.SelectionFaults
import PetDuel.Proofs.Selections
import PetDuel.Proofs.Spent
import PetDuel.Proofs.Switches
import PetDuel.Proofs.TableLines
import PetDuel.Proofs.Tables
import PetDuel.Proofs.TakenBack
import PetDuel.Proofs.TurnEnd
import PetDuel.Proofs.WeightedPicks
import PetDuel.Proofs.WriteBack
import PetDuel.Skill.Selection
import PetDuel.Snapshot.Scene
