import Macaque.Main
import Macaque.Proofs.Alphabet
import Macaque.Proofs.Arguments
import Macaque.Proofs.Boundaries
import Macaque.Proofs.Colours
import Macaque.Proofs.Decoding
import Macaque.Proofs.Limits
import Macaque.Proofs.Mark
import Macaque.Proofs.Merging
import Macaque.Proofs.Offences
import Macaque.Proofs.Offsets
import Macaque.Proofs.Order
import Macaque.Proofs.Output
import Macaque.Proofs.Progress
import Macaque.Proofs.Readings
import Macaque.Proofs.Records
import Macaque.Proofs.Scanner
import Macaque.Proofs.Sessions
import Macaque.Proofs.Settled
import Macaque.Proofs.Twins
import Macaque.Proofs.Undecodable
import Macaque.Proofs.Verbosity
