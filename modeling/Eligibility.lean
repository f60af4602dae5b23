import Eligibility.Config.OfJson
import Eligibility.Host.Session
import Eligibility.Record.OfJson
import Eligibility.Proofs.Reachable
import Eligibility.Proofs.Verdicts
import Eligibility.Proofs.Combining
import Eligibility.Proofs.ShortCircuit
import Eligibility.Proofs.Blame
import Eligibility.Proofs.Limits
import Eligibility.Proofs.Arrangement
import Eligibility.Proofs.Faults
import Eligibility.Proofs.Json.Prefixes
import Eligibility.Proofs.Attributes
import Eligibility.Proofs.Batches
import Eligibility.Proofs.Parentheses
import Eligibility.Proofs.Rearranging
import Eligibility.Proofs.Numerals
import Eligibility.Proofs.Splicing
import Eligibility.Proofs.Records
import Eligibility.Proofs.Configurations
import Eligibility.Proofs.Walks
