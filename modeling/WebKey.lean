import WebKey.Debug.Views
import WebKey.Proofs.Arithmetic
import WebKey.Proofs.Generation.Exponents
import WebKey.Proofs.Generation.Split
import WebKey.Proofs.Jwk.Canonical
import WebKey.Proofs.Jwk.OtherPrimeList
import WebKey.Proofs.Jwk.PlainKeys
import WebKey.Proofs.Jwk.PublicHalf
import WebKey.Proofs.Jwk.SizeLimit
import WebKey.Proofs.Jwk.WithoutFactors
import WebKey.Proofs.Rsa.Decryption
