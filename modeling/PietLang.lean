import PietLang.Color.Palette
import PietLang.Main
import PietLang.Proofs.Classification
import PietLang.Proofs.Crossing
import PietLang.Proofs.Division
import PietLang.Proofs.Downsampling
import PietLang.Proofs.Failures
import PietLang.Proofs.FiniteMap
import PietLang.Proofs.Footprint
import PietLang.Proofs.Halting
import PietLang.Proofs.Invariance
import PietLang.Proofs.Landing
import PietLang.Proofs.Loading
import PietLang.Proofs.Lookahead
import PietLang.Proofs.Palette
import PietLang.Proofs.Position
import PietLang.Proofs.ReadBack
import PietLang.Proofs.Roll
import PietLang.Proofs.Sampling
import PietLang.Proofs.SearchBound
import PietLang.Proofs.SearchRules
import PietLang.Proofs.Tokens
