import Ccmchain.Abi.GoMap
import Ccmchain.Abi.Mccmod
import Ccmchain.Abi.Abi
import Ccmchain.Proofs.FreshKey
import Ccmchain.Proofs.Registry
import Ccmchain.Proofs.Policy
import Ccmchain.Proofs.Lookup
import Ccmchain.Ccmash.Difficulty
import Ccmchain.Proofs.Difficulty
import Ccmchain.Ssh.Transport
import Ccmchain.Ssh.Prompts
import Ccmchain.Ssh.ClientAuth
import Ccmchain.Proofs.Prompts
import Ccmchain.Proofs.Retry
import Ccmchain.Proofs.PublicKey
import Ccmchain.Proofs.AuthLoop
import Ccmchain.Proofs.Wire
