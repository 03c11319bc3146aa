import Eligibility.Host.Session
import Eligibility.Proofs.Activity
import Eligibility.Proofs.BareNumeral
import Eligibility.Proofs.Combination
import Eligibility.Proofs.Continuation
import Eligibility.Proofs.Eagerness
import Eligibility.Proofs.Effect
import Eligibility.Proofs.Extension
import Eligibility.Proofs.FlatForm
import Eligibility.Proofs.Flattening
import Eligibility.Proofs.FreeName
import Eligibility.Proofs.HostCalls
import Eligibility.Proofs.Index
import Eligibility.Proofs.Integer
import Eligibility.Proofs.Levels
import Eligibility.Proofs.Lifetime
import Eligibility.Proofs.Loading
import Eligibility.Proofs.NestedForm
import Eligibility.Proofs.Ordering
import Eligibility.Proofs.Relocation
import Eligibility.Proofs.Segmentation
import Eligibility.Proofs.Spacing
import Eligibility.Proofs.StoredCombination
import Eligibility.Proofs.Submission
import Eligibility.Proofs.TokenRow
import Eligibility.Proofs.Transparency
import Eligibility.Proofs.Unfolding
import Eligibility.Proofs.Word
import Eligibility.RuleBook.Call
import Eligibility.Wire.Node
import Eligibility.Proofs.Preorder
import Eligibility.Proofs.Machine
